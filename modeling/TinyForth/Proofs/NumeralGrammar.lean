import Mathlib.Data.Nat.Digits.Defs
import TinyForth.Proofs.PrintedNumbers

/-!
# The grammar of numerals

`Denotes` says what a numeral is and which integer it denotes, without any way of reading it.  There
is padding around a sign or none and digits of any script, single underscores stand between two
digits only, and there are at most 4300 digits.  `value?` reads a text from both ends and then one
character after the other.  It finds a value exactly if the text is in the grammar, and then it is
the integer the text denotes (`value?_eq_some_iff`).

The compiler takes a word for a numeral by this rule, and the console takes a line of its input for
one by the same rule.
-/

namespace TinyForth

/-! ## Digits of any script -/

namespace Text

/-- The character is a decimal digit of that value, in one of the scripts. -/
def IsDigitOf (c : Char) (d : Nat) : Prop := d ≤ 9 ∧ ∃ z ∈ zeros, c.toNat = z + d

/-- The digits of no two scripts overlap. -/
theorem zeros_apart : ∀ z ∈ zeros, ∀ z' ∈ zeros, z = z' ∨ z + 9 < z' ∨ z' + 9 < z := by
  have chain : zeros.IsChain fun a b => a + 9 < b := by decide +kernel
  have : IsTrans Nat fun a b => a + 9 < b := ⟨fun a b c ab bc => by omega⟩
  have apart : zeros.Pairwise fun a b => a = b ∨ a + 9 < b ∨ b + 9 < a :=
    (List.isChain_iff_pairwise.mp chain).imp fun below => .inr (.inl below)
  have : Std.Symm fun a b : Nat => a = b ∨ a + 9 < b ∨ b + 9 < a := ⟨fun a b h => by omega⟩
  exact fun z hz z' hz' => apart.forall_of_forall (fun _ _ => .inl rfl) hz hz'

theorem digit?_eq_some_iff {c : Char} {d : Nat} : digit? c = some d ↔ IsDigitOf c d := by
  constructor
  · intro h
    obtain ⟨z, found, rfl⟩ := Option.map_eq_some_iff.mp h
    have bounds := List.find?_some found
    simp only [Bool.and_eq_true, decide_eq_true_eq] at bounds
    exact ⟨by omega, z, List.mem_of_find?_eq_some found, by omega⟩
  · rintro ⟨small, z, mem, code⟩
    rw [digit?]
    cases found : zeros.find? fun z => decide (z ≤ c.toNat) && decide (c.toNat ≤ z + 9) with
    | none =>
        have outside := List.find?_eq_none.mp found z mem
        simp only [Bool.and_eq_true, decide_eq_true_eq] at outside
        omega
    | some z' =>
        have bounds := List.find?_some found
        simp only [Bool.and_eq_true, decide_eq_true_eq] at bounds
        have same := zeros_apart z mem z' (List.mem_of_find?_eq_some found)
        rw [Option.map_some]
        congr 1
        omega

/-! ## Trimming -/

theorem trim_append_left {drop : Char → Bool} {s : Text} (h : ∀ c ∈ s, drop c = true) (t : Text) :
    trim drop (s ++ t) = trim drop t := by
  rw [trim, List.dropWhile_append_of_pos h, trim]

/-- A text is what trimming leaves of it, between characters that are dropped. -/
theorem exists_trim (drop : Char → Bool) (t : Text) :
    ∃ front back, t = front ++ (trim drop t ++ back) ∧ (∀ c ∈ front, drop c = true) ∧
      ∀ c ∈ back, drop c = true := by
  refine ⟨t.takeWhile drop, ((t.dropWhile drop).reverse.takeWhile drop).reverse, ?_, ?_, ?_⟩
  · rw [trim, ← List.reverse_append, List.takeWhile_append_dropWhile, List.reverse_reverse,
      List.takeWhile_append_dropWhile]
  · exact fun c mem => List.mem_takeWhile_imp mem
  · exact fun c mem => List.mem_takeWhile_imp (List.mem_reverse.mp mem)

end Text

namespace Numeral

/-! ## The grammar -/

/-- The character is white space, and none of the four separators U+001C to U+001F. -/
def IsSpace (c : Char) : Prop := Text.isBlank c = true ∧ ¬ (0x1C ≤ c.toNat ∧ c.toNat ≤ 0x1F)

instance (c : Char) : Decidable (IsSpace c) :=
  inferInstanceAs (Decidable (Text.isBlank c = true ∧ ¬ (0x1C ≤ c.toNat ∧ c.toNat ≤ 0x1F)))

/-- A sign or none, and the factor it stands for. -/
inductive Sign : Text → Int → Prop where
  | none : Sign [] 1
  | plus : Sign ['+'] 1
  | minus : Sign ['-'] (-1)

/-- Digits with single underscores between two of them, and the values of the digits. -/
inductive Digits : Text → List Nat → Prop where
  /-- A digit alone. -/
  | one {c : Char} {d : Nat} : Text.IsDigitOf c d → Digits [c] [d]
  /-- A digit before others. -/
  | next {c : Char} {d : Nat} {t : Text} {ds : List Nat} : Text.IsDigitOf c d → Digits t ds →
      Digits (c :: t) (d :: ds)
  /-- A digit and an underscore before others. -/
  | apart {c : Char} {d : Nat} {t : Text} {ds : List Nat} : Text.IsDigitOf c d → Digits t ds →
      Digits (c :: '_' :: t) (d :: ds)

/-- The text is a numeral and denotes the integer. -/
inductive Denotes : Text → Int → Prop where
  | numeral {front sign body back : Text} {s : Int} {ds : List Nat} :
      (∀ c ∈ front, IsSpace c) → Sign sign s → Digits body ds → ds.length ≤ 4300 →
      (∀ c ∈ back, IsSpace c) →
      Denotes (front ++ (sign ++ body ++ back)) (s * (Nat.ofDigits 10 ds.reverse : Nat))

/-! ## Reading digits -/

theorem isPadding_iff {c : Char} : Text.isPadding c = true ↔ IsSpace c := by
  have separator : Text.isSeparator c = true ↔ 0x1C ≤ c.toNat ∧ c.toNat ≤ 0x1F := by
    simp [Text.isSeparator, CodeRanges.has]
  rw [Text.isPadding, Bool.and_eq_true, Bool.not_eq_true', ← Bool.not_eq_true, separator, IsSpace]

theorem ofDigits_eq (ds : List Nat) : ofDigits ds = Nat.ofDigits 10 ds.reverse := by
  induction ds using List.reverseRecOn with
  | nil => rfl
  | append_singleton ds d ih =>
      rw [ofDigits_append, ih, List.reverse_append, List.reverse_singleton, List.singleton_append,
        Nat.ofDigits_cons, Nat.add_comm]

/-- What can follow a digit, together with the digit. -/
theorem digits_of_moreDigits? {t : Text} {ds : List Nat} (h : moreDigits? t = some ds) {c : Char}
    {d : Nat} (digit : Text.IsDigitOf c d) : Digits (c :: t) (d :: ds) := by
  fun_induction moreDigits? t generalizing ds c d with
  | case1 =>
      cases h
      exact .one digit
  | case2 c' rest ih =>
      obtain ⟨d', digit', more⟩ := Option.bind_eq_some_iff.mp h
      obtain ⟨ds', later, rfl⟩ := Option.map_eq_some_iff.mp more
      exact .apart digit (ih later (Text.digit?_eq_some_iff.mp digit'))
  | case3 c' rest _ ih =>
      obtain ⟨d', digit', more⟩ := Option.bind_eq_some_iff.mp h
      obtain ⟨ds', later, rfl⟩ := Option.map_eq_some_iff.mp more
      exact .next digit (ih later (Text.digit?_eq_some_iff.mp digit'))

theorem digits?_cons {c : Char} {d : Nat} {t : Text} {ds : List Nat} (digit : Text.IsDigitOf c d)
    (more : moreDigits? t = some ds) : digits? (c :: t) = some (d :: ds) := by
  rw [digits?, Text.digit?_eq_some_iff.mpr digit, Option.bind_some, more, Option.map_some]

theorem moreDigits?_cons {c : Char} {d : Nat} {t : Text} {ds : List Nat}
    (digit : Text.IsDigitOf c d) (more : moreDigits? t = some ds) :
    moreDigits? (c :: t) = some (d :: ds) ∧ moreDigits? ('_' :: c :: t) = some (d :: ds) := by
  have read := Text.digit?_eq_some_iff.mpr digit
  constructor
  · rw [← digits?_eq_moreDigits? (ne_underscore_of_digit? read), digits?_cons digit more]
  · rw [moreDigits?, read, Option.bind_some, more, Option.map_some]

/-- Digits can follow a digit, and so they can behind an underscore. -/
theorem moreDigits?_of_digits {t : Text} {ds : List Nat} (h : Digits t ds) :
    moreDigits? t = some ds ∧ moreDigits? ('_' :: t) = some ds := by
  induction h with
  | one digit => exact moreDigits?_cons digit rfl
  | next digit _ ih => exact moreDigits?_cons digit ih.1
  | apart digit _ ih => exact moreDigits?_cons digit ih.2

theorem digits?_eq_some_iff {t : Text} {ds : List Nat} : digits? t = some ds ↔ Digits t ds := by
  constructor
  · intro h
    cases t with
    | nil => cases h
    | cons c rest =>
        obtain ⟨d, digit, more⟩ := Option.bind_eq_some_iff.mp h
        obtain ⟨ds', later, rfl⟩ := Option.map_eq_some_iff.mp more
        exact digits_of_moreDigits? later (Text.digit?_eq_some_iff.mp digit)
  · intro h
    cases h with
    | one digit => exact digits?_cons digit rfl
    | next digit later => exact digits?_cons digit (moreDigits?_of_digits later).1
    | apart digit later => exact digits?_cons digit (moreDigits?_of_digits later).2

theorem magnitude?_eq_some_iff {t : Text} {m : Nat} :
    magnitude? t = some m ↔
      ∃ ds, Digits t ds ∧ ds.length ≤ 4300 ∧ m = Nat.ofDigits 10 ds.reverse := by
  simp only [magnitude?, Option.bind_eq_some_iff, digits?_eq_some_iff,
    Option.ite_none_right_eq_some, Option.some.injEq, ofDigits_eq, maxDigits, eq_comm (a := m)]

/-! ## Reading signs and padding -/

theorem isDigitChar_of_digits {t : Text} {ds : List Nat} (h : Digits t ds) :
    ∀ c ∈ t, isDigitChar c = true :=
  isDigitChar_of_digits? (digits?_eq_some_iff.mpr h)

theorem isPadding_eq_false_of_sign {t : Text} {s : Int} (h : Sign t s) :
    ∀ c ∈ t, Text.isPadding c = false := by
  cases h with
  | none => simp
  | plus => exact List.forall_mem_singleton.mpr (by decide)
  | minus => exact List.forall_mem_singleton.mpr (by decide)

theorem signed?_eq_some_iff {t : Text} {n : Int} :
    signed? t = some n ↔ ∃ sign body s ds, t = sign ++ body ∧ Sign sign s ∧ Digits body ds ∧
      ds.length ≤ 4300 ∧ n = s * (Nat.ofDigits 10 ds.reverse : Nat) := by
  constructor
  · intro h
    unfold signed? at h
    split at h
    next u =>
      obtain ⟨m, magnitude, rfl⟩ := Option.map_eq_some_iff.mp h
      obtain ⟨ds, digits, short, rfl⟩ := magnitude?_eq_some_iff.mp magnitude
      exact ⟨['+'], u, 1, ds, rfl, .plus, digits, short, (Int.one_mul _).symm⟩
    next u =>
      obtain ⟨m, magnitude, rfl⟩ := Option.map_eq_some_iff.mp h
      obtain ⟨ds, digits, short, rfl⟩ := magnitude?_eq_some_iff.mp magnitude
      exact ⟨['-'], u, -1, ds, rfl, .minus, digits, short, (Int.neg_one_mul _).symm⟩
    next =>
      obtain ⟨m, magnitude, rfl⟩ := Option.map_eq_some_iff.mp h
      obtain ⟨ds, digits, short, rfl⟩ := magnitude?_eq_some_iff.mp magnitude
      exact ⟨[], t, 1, ds, rfl, .none, digits, short, (Int.one_mul _).symm⟩
  · rintro ⟨sign, body, s, ds, rfl, hs, digits, short, rfl⟩
    have magnitude := magnitude?_eq_some_iff.mpr ⟨ds, digits, short, rfl⟩
    cases hs with
    | none =>
        rw [List.nil_append, signed?_of_isDigitChar (isDigitChar_of_digits digits), magnitude,
          Int.one_mul, Option.map_some]
    | plus => rw [List.singleton_append, signed?, magnitude, Int.one_mul, Option.map_some]
    | minus => rw [List.singleton_append, signed?, magnitude, Int.neg_one_mul, Option.map_some]

/-- A text has a value exactly if it is a numeral of the grammar, and then it is the one that the
numeral denotes. -/
theorem value?_eq_some_iff {t : Text} {n : Int} : value? t = some n ↔ Denotes t n := by
  constructor
  · intro h
    obtain ⟨front, back, split, before, behind⟩ := Text.exists_trim Text.isPadding t
    obtain ⟨sign, body, s, ds, core, hs, digits, short, rfl⟩ := signed?_eq_some_iff.mp h
    rw [split, core]
    exact .numeral (fun c mem => isPadding_iff.mp (before c mem)) hs digits short
      fun c mem => isPadding_iff.mp (behind c mem)
  · rintro ⟨before, hs, digits, short, behind⟩
    have solid : ∀ c ∈ _ ++ _, Text.isPadding c = false := List.forall_mem_append.mpr
      ⟨isPadding_eq_false_of_sign hs, fun c mem =>
        isPadding_eq_false_of_isDigitChar (isDigitChar_of_digits digits c mem)⟩
    rw [value?, Text.trim_append_left fun c mem => isPadding_iff.mpr (before c mem),
      Text.trim_append _ fun c mem => isPadding_iff.mpr (behind c mem), Text.trim_of_forall solid]
    exact signed?_eq_some_iff.mpr ⟨_, _, _, _, rfl, hs, digits, short, rfl⟩

theorem isNumeral_iff {t : Text} : isNumeral t = true ↔ ∃ n, Denotes t n := by
  simp only [isNumeral, Option.isSome_iff_exists, value?_eq_some_iff]

end Numeral

namespace Console

/-! ## Reading a line -/

/-- Whatever was called before, the next line is read as the integer that it denotes, or as zero. -/
theorem reply_to_next_line {stdin : Text} {lines : List Text} (h : Text.Lines stdin lines)
    {calls : List Call} {line : Text} (next : lines[calls.count .input]? = some line) :
    (((start stdin).run calls).1.call .input).2 =
      { result := .ok (some ((Numeral.value? line).getD 0)) } := by
  have remains := run_remains (remains_start h) calls
  rw [Nat.zero_add] at remains
  rcases call_input_cases remains with ⟨past, _⟩ | ⟨line', _, found, _, reply⟩
  · rw [List.getElem?_eq_none past] at next
    cases next
  · rw [found] at next
    rw [reply, Option.some.inj next]

/-- The compiler and the console read the same integers.  A text is a numeral to the compiler
exactly if it is one of the grammar.  When the text is a line of the input and the lines before it
have been asked for, whatever else was called in between, the next call that reads returns the
integer that the text denotes if it is a numeral, and zero if it is not.  It does not fail. -/
theorem compiler_and_console_read_same_integers (t : Text) :
    (Numeral.isNumeral t = true ↔ ∃ n, Numeral.Denotes t n) ∧
    ∀ stdin lines calls, Text.Lines stdin lines → lines[calls.count .input]? = some t →
      let reply := (((start stdin).run calls).1.call .input).2
      (∀ n, Numeral.Denotes t n → reply = { result := .ok (some n) }) ∧
      (Numeral.isNumeral t = false → reply = { result := .ok (some 0) }) := by
  refine ⟨Numeral.isNumeral_iff, fun stdin lines calls h next => ?_⟩
  intro reply
  have read : reply = { result := .ok (some ((Numeral.value? t).getD 0)) } :=
    reply_to_next_line h next
  constructor
  · intro n denotes
    rw [read, Numeral.value?_eq_some_iff.mpr denotes, Option.getD_some]
  · intro no
    rw [read, Option.isNone_iff_eq_none.mp (Option.isSome_eq_false_iff.mp no), Option.getD_none]

/-- A numeral with digits of two scripts, an underscore and padding on both sides.  It is the second
line of an input whose first line is no numeral, and something is printed before it is read. -/
theorem console_reads_mixed_numeral :
    let t : Text := [' ', '-', '٣', '_', '7', '\u3000']
    let stdin := "1__0\r\n".toList ++ t
    let calls : List Call := [.input, .print 5]
    Numeral.isNumeral t = true ∧ Numeral.isNumeral "1__0".toList = false ∧
      Text.Lines stdin ["1__0".toList, t] ∧
      ((start stdin).call .input).2 = { result := .ok (some 0) } ∧
      (((start stdin).run calls).1.call .input).2 = { result := .ok (some (-37)) } := by
  intro t stdin calls
  have arabic : Text.IsDigitOf '٣' 3 := ⟨by decide, 0x660, by decide, by decide⟩
  have latin : Text.IsDigitOf '7' 7 := ⟨by decide, 0x30, by decide, by decide⟩
  have denotes : Numeral.Denotes ([' '] ++ (['-'] ++ ['٣', '_', '7'] ++ ['\u3000']))
      (-1 * (Nat.ofDigits 10 [3, 7].reverse : Nat)) :=
    .numeral (List.forall_mem_singleton.mpr (by decide)) .minus (.apart arabic (.one latin))
      (by decide) (List.forall_mem_singleton.mpr (by decide))
  have noNumeral : Numeral.isNumeral "1__0".toList = false := by decide
  have plain : Text.NoLineEnd "1__0".toList := by simp [Text.NoLineEnd]
  have lines : Text.Lines stdin ["1__0".toList, t] :=
    .ended plain (.pair t) (.last (by simp [t]) (by simp [Text.NoLineEnd, t]))
  obtain ⟨numeral, second⟩ := compiler_and_console_read_same_integers t
  obtain ⟨_, first⟩ := compiler_and_console_read_same_integers "1__0".toList
  exact ⟨numeral.mpr ⟨_, denotes⟩, noNumeral, lines, (first stdin _ [] lines rfl).2 noNumeral,
    (second stdin _ calls lines rfl).1 _ denotes⟩

end Console

end TinyForth
