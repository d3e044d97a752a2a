import TinyForth.Proofs.Alphabet
import TinyForth.Wat.Literal

/-!
# Literals that are numerals

A source writes its integers as numerals and a module shows them as literals of the text
format, with the same characters.  The two are read by different rules.  The digits of a
literal come in groups that are split at underscores, and the digits of a numeral are read one
by one.  On a text that both rules accept they agree (`literalValue?_eq_value?`).

Which numerals are literals is a matter of their characters and of their range.  The digits of
a numeral may be of any script, those of a literal are of ASCII, and there the groups and the
digits read one by one come to the same (`unsigned?_eq_some_iff`).  A numeral without padding is a
literal exactly if it is of ASCII and its value is in the range of its kind (`literal?_isSome_iff`).
-/

namespace TinyForth

/-! ## Digits and groups -/

namespace Text

theorem isDigit_iff {c : Char} : c.isDigit = true ↔ 0x30 ≤ c.toNat ∧ c.toNat ≤ 0x39 :=
  Char.isDigit_iff_toNat

theorem digit?_of_isDigit {c : Char} (h : c.isDigit = true) :
    digit? c = some (c.toNat - '0'.toNat) := by
  have bounds := isDigit_iff.mp h
  simp only [digit?, zeros, List.find?_cons, bounds]
  rfl

theorem trim_of_forall {drop : Char → Bool} {t : Text} (h : ∀ c ∈ t, drop c = false) :
    t.trim drop = t := by
  have kept : ∀ {s : Text}, (∀ c ∈ s, drop c = false) → s.dropWhile drop = s := by
    intro s hs
    cases s with
    | nil => rfl
    | cons c cs =>
        rw [List.dropWhile_cons_of_neg]
        exact Bool.eq_false_iff.mp (hs c (List.mem_cons_self ..))
  rw [trim, kept h, kept fun c hc => h c (List.mem_reverse.mp hc), List.reverse_reverse]

end Text

namespace Numeral

/-- The values of digits. -/
def digitValues (t : Text) : List Nat := t.map fun c => c.toNat - '0'.toNat

theorem splitOn_cons_ne {a c : Char} {t g : Text} {gs : List Text} (hc : c ≠ a)
    (h : (c :: t).splitOn a = g :: gs) : ∃ g', g = c :: g' ∧ t.splitOn a = g' :: gs := by
  rw [List.splitOn_cons_eq_if_modifyHead, if_neg (by simpa using hc)] at h
  cases pieces : t.splitOn a with
  | nil => exact absurd pieces (List.splitOn_ne_nil a t)
  | cons g' gs' =>
      rw [pieces, List.modifyHead_cons] at h
      cases h
      exact ⟨g', rfl, rfl⟩

theorem splitOn_cons_self (a : Char) (t : Text) : (a :: t).splitOn a = [] :: t.splitOn a := by
  rw [List.splitOn_cons_eq_if_modifyHead, if_pos (by simp)]

/-- Groups of digits joined by underscores are digits with single underscores between them. -/
theorem moreDigits?_of_groups {t g : Text} {gs : List Text} (groups : t.splitOn '_' = g :: gs)
    (first : ∀ c ∈ g, c.isDigit = true)
    (others : ∀ g' ∈ gs, g' ≠ [] ∧ ∀ c ∈ g', c.isDigit = true) :
    moreDigits? t = some (digitValues (g :: gs).flatten) := by
  fun_induction moreDigits? t generalizing g gs with
  | case1 =>
      cases groups
      rfl
  | case2 c rest ih =>
      rw [splitOn_cons_self] at groups
      cases groups
      cases pieces : (c :: rest).splitOn '_' with
      | nil => exact absurd pieces (List.splitOn_ne_nil '_' (c :: rest))
      | cons g gs =>
          rw [pieces] at others
          obtain ⟨⟨nonempty, digits⟩, later⟩ := List.forall_mem_cons.mp others
          by_cases hc : c = '_'
          · rw [hc, splitOn_cons_self] at pieces
            cases pieces
            exact absurd rfl nonempty
          · obtain ⟨g', rfl, rest'⟩ := splitOn_cons_ne hc pieces
            obtain ⟨digit, digits⟩ := List.forall_mem_cons.mp digits
            rw [Text.digit?_of_isDigit digit, ih rest' digits later]
            rfl
  | case3 c rest notUnderscore ih =>
      by_cases hc : c = '_'
      · cases rest with
        | nil =>
            rw [hc, splitOn_cons_self] at groups
            cases groups
            exact absurd rfl (others [] (List.mem_cons_self ..)).1
        | cons c' rest => exact absurd rfl (notUnderscore c' rest hc)
      · obtain ⟨g', rfl, rest'⟩ := splitOn_cons_ne hc groups
        obtain ⟨digit, digits⟩ := List.forall_mem_cons.mp first
        rw [Text.digit?_of_isDigit digit, ih rest' digits others]
        rfl

theorem digits?_eq_moreDigits? {c : Char} {t : Text} (hc : c ≠ '_') :
    digits? (c :: t) = moreDigits? (c :: t) := by
  rw [moreDigits?, digits?]
  intro _ _ same
  exact absurd same hc

theorem isPadding_eq_false_of_isDigitChar {c : Char} (h : isDigitChar c = true) :
    Text.isPadding c = false := by
  rcases Bool.or_eq_true_iff.mp h with underscore | digit
  · rw [eq_of_beq underscore]
    decide
  · obtain ⟨d, hd⟩ := Option.isSome_iff_exists.mp digit
    exact Text.isPadding_eq_false_of_isBlank (Text.isBlank_eq_false_of_digit? hd)

/-- The groups of a literal are the digits of a numeral. -/
theorem digits?_of_unsigned? {t : Text} {n : Nat} (h : Wat.unsigned? t = some n) :
    ∃ ds, digits? t = some ds ∧ ofDigits ds = n := by
  unfold Wat.unsigned? at h
  dsimp only at h
  split at h
  next all =>
    have groups : ∀ g ∈ t.splitOn '_', g ≠ [] ∧ ∀ c ∈ g, c.isDigit = true := by
      simpa using all
    cases pieces : t.splitOn '_' with
    | nil => exact absurd pieces (List.splitOn_ne_nil '_' t)
    | cons g gs =>
        rw [pieces] at h groups
        obtain ⟨⟨nonempty, first⟩, others⟩ := List.forall_mem_cons.mp groups
        refine ⟨digitValues (g :: gs).flatten, ?_, ?_⟩
        · cases t with
          | nil =>
              cases pieces
              exact absurd rfl nonempty
          | cons c rest =>
              rw [digits?_eq_moreDigits?]
              · exact moreDigits?_of_groups pieces first others
              · rintro rfl
                rw [splitOn_cons_self] at pieces
                cases pieces
                exact absurd rfl nonempty
        · rw [ofDigits, digitValues, List.foldl_map]
          exact Option.some.inj h
  next => cases h

theorem magnitude?_of_unsigned? {t : Text} {n m : Nat} (literal : Wat.unsigned? t = some n)
    (numeral : magnitude? t = some m) : n = m := by
  obtain ⟨ds, digits, value⟩ := digits?_of_unsigned? literal
  rw [magnitude?, digits, Option.bind_some] at numeral
  split at numeral
  · exact value.symm.trans (Option.some.inj numeral)
  · cases numeral

theorem isPadding_eq_false_of_unsigned? {t : Text} {n : Nat} (h : Wat.unsigned? t = some n) :
    ∀ c ∈ t, Text.isPadding c = false := by
  obtain ⟨ds, digits, _⟩ := digits?_of_unsigned? h
  exact fun c hc => isPadding_eq_false_of_isDigitChar (isDigitChar_of_digits? digits c hc)

theorem isPadding_eq_false_of_literalValue? {t : Text} {n : Int}
    (h : Wat.literalValue? t = some n) : ∀ c ∈ t, Text.isPadding c = false := by
  unfold Wat.literalValue? at h
  split at h
  next u =>
    obtain ⟨m, hm, _⟩ := Option.map_eq_some_iff.mp (Option.filter_eq_some_iff.mp h).1
    exact List.forall_mem_cons.mpr ⟨by decide, isPadding_eq_false_of_unsigned? hm⟩
  next u =>
    obtain ⟨m, hm, _⟩ := Option.map_eq_some_iff.mp (Option.filter_eq_some_iff.mp h).1
    exact List.forall_mem_cons.mpr ⟨by decide, isPadding_eq_false_of_unsigned? hm⟩
  next =>
    obtain ⟨m, hm, _⟩ := Option.map_eq_some_iff.mp (Option.filter_eq_some_iff.mp h).1
    exact isPadding_eq_false_of_unsigned? hm

/-- A text that is a literal and a numeral denotes one integer. -/
theorem literalValue?_eq_value? {t : Text} {n k : Int} (literal : Wat.literalValue? t = some n)
    (numeral : value? t = some k) : n = k := by
  -- a literal has no padding, so the numeral is read from the same characters
  rw [value?, Text.trim_of_forall (isPadding_eq_false_of_literalValue? literal)] at numeral
  unfold Wat.literalValue? at literal
  split at literal
  next u =>
    obtain ⟨m, hm, rfl⟩ := Option.map_eq_some_iff.mp (Option.filter_eq_some_iff.mp literal).1
    obtain ⟨m', hm', rfl⟩ := Option.map_eq_some_iff.mp numeral
    rw [magnitude?_of_unsigned? hm hm']
    rfl
  next u =>
    obtain ⟨m, hm, rfl⟩ := Option.map_eq_some_iff.mp (Option.filter_eq_some_iff.mp literal).1
    obtain ⟨m', hm', rfl⟩ := Option.map_eq_some_iff.mp numeral
    rw [magnitude?_of_unsigned? hm hm']
    rfl
  next noPlus noMinus =>
    obtain ⟨m, hm, rfl⟩ := Option.map_eq_some_iff.mp (Option.filter_eq_some_iff.mp literal).1
    rw [signed?.eq_3 t noPlus noMinus] at numeral
    obtain ⟨m', hm', rfl⟩ := Option.map_eq_some_iff.mp numeral
    rw [magnitude?_of_unsigned? hm hm']
    rfl

/-! ## Numerals that are literals -/

theorem isDigit_of_digit? {c : Char} {d : Nat} (h : Text.digit? c = some d)
    (ascii : c.toNat < 0x80) : c.isDigit = true := by
  have least : ∀ z ∈ Text.zeros, z < 0x80 → z = 0x30 := by decide
  obtain ⟨z, found, _⟩ := Option.map_eq_some_iff.mp h
  have bounds := List.find?_some found
  simp only [Bool.and_eq_true, decide_eq_true_eq] at bounds
  have zero := least z (List.mem_of_find?_eq_some found) (by omega)
  rw [Text.isDigit_iff]
  omega

theorem ne_underscore_of_digit? {c : Char} {d : Nat} (h : Text.digit? c = some d) : c ≠ '_' := by
  have none : Text.digit? '_' = none := by decide
  rintro rfl
  rw [none] at h
  cases h

theorem splitOn_cons_of_ne {a c : Char} {t g : Text} {gs : List Text} (hc : c ≠ a)
    (h : t.splitOn a = g :: gs) : (c :: t).splitOn a = (c :: g) :: gs := by
  rw [List.splitOn_cons_eq_if_modifyHead, if_neg (by simpa using hc), h, List.modifyHead_cons]

/-- Digits of ASCII with single underscores between them are groups of digits joined by
underscores. -/
theorem groups_of_moreDigits? {t : Text} {ds : List Nat} (h : moreDigits? t = some ds)
    (ascii : ∀ c ∈ t, c.toNat < 0x80) :
    ∃ g gs, t.splitOn '_' = g :: gs ∧ (∀ c ∈ g, c.isDigit = true) ∧
      ∀ g' ∈ gs, g' ≠ [] ∧ ∀ c ∈ g', c.isDigit = true := by
  fun_induction moreDigits? t generalizing ds with
  | case1 => exact ⟨[], [], rfl, by simp, by simp⟩
  | case2 c rest ih =>
      obtain ⟨d, digit, more⟩ := Option.bind_eq_some_iff.mp h
      obtain ⟨ds', more, _⟩ := Option.map_eq_some_iff.mp more
      obtain ⟨_, hc, hrest⟩ := List.forall_mem_cons.mp ascii |>.imp id List.forall_mem_cons.mp
      obtain ⟨g, gs, groups, first, others⟩ := ih more hrest
      refine ⟨[], (c :: g) :: gs, ?_, by simp, ?_⟩
      · rw [splitOn_cons_self, splitOn_cons_of_ne (ne_underscore_of_digit? digit) groups]
      · exact List.forall_mem_cons.mpr
          ⟨⟨by simp, List.forall_mem_cons.mpr ⟨isDigit_of_digit? digit hc, first⟩⟩, others⟩
  | case3 c rest _ ih =>
      obtain ⟨d, digit, more⟩ := Option.bind_eq_some_iff.mp h
      obtain ⟨ds', more, _⟩ := Option.map_eq_some_iff.mp more
      obtain ⟨hc, hrest⟩ := List.forall_mem_cons.mp ascii
      obtain ⟨g, gs, groups, first, others⟩ := ih more hrest
      exact ⟨c :: g, gs, splitOn_cons_of_ne (ne_underscore_of_digit? digit) groups,
        List.forall_mem_cons.mpr ⟨isDigit_of_digit? digit hc, first⟩, others⟩

theorem unsigned?_isSome_of_digits? {t : Text} {ds : List Nat} (h : digits? t = some ds)
    (ascii : ∀ c ∈ t, c.toNat < 0x80) : (Wat.unsigned? t).isSome = true := by
  cases t with
  | nil => cases h
  | cons c rest =>
      obtain ⟨d, digit, more⟩ := Option.bind_eq_some_iff.mp h
      obtain ⟨ds', more, _⟩ := Option.map_eq_some_iff.mp more
      obtain ⟨hc, hrest⟩ := List.forall_mem_cons.mp ascii
      obtain ⟨g, gs, groups, first, others⟩ := groups_of_moreDigits? more hrest
      have all : ∀ g' ∈ (c :: g) :: gs, g' ≠ [] ∧ ∀ c ∈ g', c.isDigit = true :=
        List.forall_mem_cons.mpr
          ⟨⟨by simp, List.forall_mem_cons.mpr ⟨isDigit_of_digit? digit hc, first⟩⟩, others⟩
      rw [Wat.unsigned?, splitOn_cons_of_ne (ne_underscore_of_digit? digit) groups,
        if_pos (by simpa using all), Option.isSome_some]

theorem mem_splitOn_or {a c : Char} {t : Text} (h : c ∈ t) : c = a ∨ ∃ g ∈ t.splitOn a, c ∈ g := by
  induction t with
  | nil => cases h
  | cons b t ih =>
      by_cases hb : b = a
      · rw [hb, splitOn_cons_self]
        rcases List.mem_cons.mp h with rfl | later
        · exact Or.inl hb
        · refine (ih later).imp_right ?_
          rintro ⟨g, mem, inside⟩
          exact ⟨g, List.mem_cons_of_mem _ mem, inside⟩
      · cases pieces : t.splitOn a with
        | nil => exact absurd pieces (List.splitOn_ne_nil a t)
        | cons g gs =>
            rw [splitOn_cons_of_ne hb pieces]
            rw [pieces] at ih
            rcases List.mem_cons.mp h with rfl | later
            · exact Or.inr ⟨c :: g, List.mem_cons_self .., List.mem_cons_self ..⟩
            · refine (ih later).imp_right ?_
              rintro ⟨g', mem, inside⟩
              rcases List.mem_cons.mp mem with rfl | mem
              · exact ⟨b :: g', List.mem_cons_self .., List.mem_cons_of_mem _ inside⟩
              · exact ⟨g', List.mem_cons_of_mem _ mem, inside⟩

theorem ascii_of_unsigned? {t : Text} {n : Nat} (h : Wat.unsigned? t = some n) :
    ∀ c ∈ t, c.toNat < 0x80 := by
  unfold Wat.unsigned? at h
  dsimp only at h
  split at h
  next all =>
    have groups : ∀ g ∈ t.splitOn '_', g ≠ [] ∧ ∀ c ∈ g, c.isDigit = true := by
      simpa using all
    intro c mem
    rcases mem_splitOn_or (a := '_') mem with rfl | ⟨g, memG, inside⟩
    · decide
    · have bounds := Text.isDigit_iff.mp ((groups g memG).2 c inside)
      omega
  next => cases h

/-- Of the unsigned numerals, those of ASCII are literals, apart from their range. -/
theorem unsigned?_eq_some_iff {t : Text} {n : Nat} (numeral : magnitude? t = some n) :
    Wat.unsigned? t = some n ↔ ∀ c ∈ t, c.toNat < 0x80 := by
  refine ⟨ascii_of_unsigned?, ?_⟩
  intro ascii
  obtain ⟨ds, digits, _⟩ := Option.bind_eq_some_iff.mp numeral
  obtain ⟨m, literal⟩ := Option.isSome_iff_exists.mp (unsigned?_isSome_of_digits? digits ascii)
  rw [literal, magnitude?_of_unsigned? literal numeral]

end Numeral

namespace Wat

/-- The value is in the range of literals of the text's kind, signed or unsigned. -/
def InRange (t : Text) (k : Int) : Prop :=
  if t.head? = some '+' ∨ t.head? = some '-' then -0x80000000 ≤ k ∧ k < 0x80000000
  else k < 0x100000000

instance (t : Text) (k : Int) : Decidable (InRange t k) :=
  inferInstanceAs (Decidable (if t.head? = some '+' ∨ t.head? = some '-' then
    -0x80000000 ≤ k ∧ k < 0x80000000 else k < 0x100000000))

theorem isSome_filter_unsigned? {u : Text} {n : Nat} (magnitude : Numeral.magnitude? u = some n)
    (f : Nat → Int) (p : Int → Bool) :
    (((unsigned? u).map f).filter p).isSome = true ↔
      (∀ c ∈ u, c.toNat < 0x80) ∧ p (f n) = true := by
  rw [← Numeral.unsigned?_eq_some_iff magnitude]
  cases literal : unsigned? u with
  | none => simp
  | some m =>
      obtain rfl := Numeral.magnitude?_of_unsigned? literal magnitude
      simp

/-- A numeral without padding is a literal exactly if it is of ASCII and in range. -/
theorem literal?_isSome_iff {t : Text} {k : Int} (numeral : Numeral.value? t = some k)
    (unpadded : ∀ c ∈ t, Text.isPadding c = false) :
    (literal? t).isSome = true ↔ (∀ c ∈ t, c.toNat < 0x80) ∧ InRange t k := by
  rw [Numeral.value?, Text.trim_of_forall unpadded] at numeral
  rw [literal?, Option.isSome_map]
  unfold Numeral.signed? at numeral
  split at numeral
  next u =>
    obtain ⟨n, magnitude, rfl⟩ := Option.map_eq_some_iff.mp numeral
    rw [literalValue?, isSome_filter_unsigned? magnitude, List.forall_mem_cons]
    simp [InRange]
  next u =>
    obtain ⟨n, magnitude, rfl⟩ := Option.map_eq_some_iff.mp numeral
    have below : -(n : Int) < 0x80000000 := by omega
    rw [literalValue?, isSome_filter_unsigned? magnitude, List.forall_mem_cons]
    simp [InRange, below]
  next noPlus noMinus =>
    obtain ⟨n, magnitude, rfl⟩ := Option.map_eq_some_iff.mp numeral
    have unsigned : ¬ (t.head? = some '+' ∨ t.head? = some '-') := by
      rintro (plus | minus)
      · obtain ⟨u, rfl⟩ := List.head?_eq_some_iff.mp plus
        exact noPlus u rfl
      · obtain ⟨u, rfl⟩ := List.head?_eq_some_iff.mp minus
        exact noMinus u rfl
    rw [literalValue?.eq_3 t noPlus noMinus, isSome_filter_unsigned? magnitude, InRange,
      if_neg unsigned]
    simp

theorem newline_not_mem_of_literal? {t : Text} {n : Cell} (h : literal? t = some n) :
    '\n' ∉ t := by
  obtain ⟨k, hk, _⟩ := Option.map_eq_some_iff.mp h
  intro newline
  have padding := Numeral.isPadding_eq_false_of_literalValue? hk '\n' newline
  revert padding
  decide

/-- The constant a numeral is shown as is the cell of its value. -/
theorem literal?_eq_ofInt {t : Text} {n : Cell} {k : Int} (literal : literal? t = some n)
    (numeral : Numeral.value? t = some k) : n = BitVec.ofInt 32 k := by
  obtain ⟨k', hk', rfl⟩ := Option.map_eq_some_iff.mp literal
  rw [Numeral.literalValue?_eq_value? hk' numeral]

end Wat

end TinyForth
