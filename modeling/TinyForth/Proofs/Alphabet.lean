import Mathlib.Data.List.Chain
import Mathlib.Data.List.TakeWhile
import TinyForth.Numeral
import TinyForth.Text.Letter

/-!
# The alphabets of names and numerals

Which characters can stand in which kind of word.  The classes of letters, digits and
blanks are tables.  Two long tables are told apart by one walk over both (`apart`), which
is enough because their ranges ascend.

A name is made of alphanumeric characters and starts with a letter.  A numeral is made of
padding, signs, underscores and digits (`isNumeralChar_of_value?`).  No letter is among the
latter, so no name is a numeral, and neither is a word with an exclamation mark.
-/

namespace TinyForth

namespace CodeRanges

/-! ## Ascending classes -/

/-- The ranges stand in ascending order of their first code points. -/
def Ascending (ranges : CodeRanges) : Prop := ranges.IsChain fun a b => a.1 ≤ b.1

instance (ranges : CodeRanges) : Decidable ranges.Ascending :=
  inferInstanceAs (Decidable (ranges.IsChain fun a b => a.1 ≤ b.1))

/-- Each range of the first class lies in a gap of the second.  Ranges of the second class below
a range of the first are passed over for good. -/
def apart : CodeRanges → CodeRanges → Bool
  | [], _ => true
  | x :: xs, ys =>
      let rest := ys.dropWhile fun y => decide (y.2 < x.1)
      (rest.head?.all fun y => decide (x.2 < y.1)) && apart xs rest

theorem Ascending.pairwise {ranges : CodeRanges} (h : ranges.Ascending) :
    ranges.Pairwise fun a b => a.1 ≤ b.1 :=
  haveI : IsTrans (Nat × Nat) fun a b => a.1 ≤ b.1 := ⟨fun _ _ _ => Nat.le_trans⟩
  List.isChain_iff_pairwise.mp h

theorem disjoint_of_apart {xs ys : CodeRanges} (hx : xs.Pairwise fun a b => a.1 ≤ b.1)
    (hy : ys.Pairwise fun a b => a.1 ≤ b.1) (h : apart xs ys = true) : disjoint xs ys = true := by
  induction xs generalizing ys with
  | nil => rfl
  | cons x xs ih =>
      obtain ⟨gap, later⟩ := Bool.and_eq_true_iff.mp h
      obtain ⟨first, hx'⟩ := List.pairwise_cons.mp hx
      have hrest := hy.sublist (List.dropWhile_sublist fun y => decide (y.2 < x.1))
      have tail := ih hx' hrest later
      simp only [disjoint, List.all_cons, Bool.and_eq_true, List.all_eq_true,
        Bool.or_eq_true, decide_eq_true_eq] at tail ⊢
      have split : ∀ y ∈ ys, y.2 < x.1 ∨ y ∈ ys.dropWhile fun y => decide (y.2 < x.1) := by
        intro y mem
        rw [← List.takeWhile_append_dropWhile (p := fun y => decide (y.2 < x.1)) (l := ys),
          List.mem_append] at mem
        exact mem.imp_left fun below => by simpa using List.mem_takeWhile_imp below
      refine ⟨fun y mem => ?_, fun x' memX y mem => ?_⟩
      · rcases split y mem with below | above
        · exact Or.inr below
        · refine Or.inl ?_
          cases hr : ys.dropWhile fun y => decide (y.2 < x.1) with
          | nil => rw [hr] at above; cases above
          | cons y₀ rest =>
              rw [hr] at above hrest gap
              have front : x.2 < y₀.1 := by simpa using gap
              rcases List.mem_cons.mp above with rfl | behind
              · exact front
              · have := List.rel_of_pairwise_cons hrest behind
                omega
      · rcases split y mem with below | above
        · have := first x' memX
          omega
        · exact tail x' memX y above

/-- Ascending classes that are apart have no character in common. -/
theorem has_eq_false_of_apart {xs ys : CodeRanges} (hx : xs.Ascending) (hy : ys.Ascending)
    (h : apart xs ys = true) {c : Char} (inX : xs.has c = true) : ys.has c = false :=
  has_eq_false_of_disjoint (disjoint_of_apart hx.pairwise hy.pairwise h) inX

end CodeRanges

namespace Text

/-- What holds of each character of a text is found out by going through the text. -/
theorem forall_mem_of_all {t : Text} {P : Char → Prop} [DecidablePred P]
    (h : t.all (fun c => decide (P c)) = true) : ∀ c ∈ t, P c :=
  fun c mem => of_decide_eq_true (List.all_eq_true.mp h c mem)

/-! ## Digits, letters and blanks -/

/-- The decimal digits, one range for each run of ten. -/
def digitRanges : CodeRanges := zeros.map fun z => (z, z + 9)

theorem letterRanges_ascending : letterRanges.Ascending := by decide +kernel

theorem numericRanges_ascending : numericRanges.Ascending := by decide +kernel

theorem blankRanges_ascending : blankRanges.Ascending := by decide

theorem digitRanges_ascending : digitRanges.Ascending := by decide +kernel

theorem has_digitRanges_of_digit? {c : Char} {d : Nat} (h : digit? c = some d) :
    digitRanges.has c = true := by
  obtain ⟨z, found, _⟩ := Option.map_eq_some_iff.mp h
  have bounds := List.find?_some found
  simp only [Bool.and_eq_true, decide_eq_true_eq] at bounds
  exact CodeRanges.has_iff.mpr
    ⟨(z, z + 9), List.mem_map.mpr ⟨z, List.mem_of_find?_eq_some found, rfl⟩, bounds⟩

theorem digit?_eq_none_of_isLetter {c : Char} (h : isLetter c = true) : digit? c = none := by
  have apart : CodeRanges.apart letterRanges digitRanges = true := by decide +kernel
  cases hd : digit? c with
  | none => rfl
  | some d =>
      have inDigits := has_digitRanges_of_digit? hd
      rw [CodeRanges.has_eq_false_of_apart letterRanges_ascending digitRanges_ascending apart h]
        at inDigits
      cases inDigits

theorem isBlank_eq_false_of_isAlphanumeric {c : Char} (h : isAlphanumeric c = true) :
    isBlank c = false := by
  have letters : CodeRanges.apart letterRanges blankRanges = true := by decide +kernel
  have numerics : CodeRanges.apart numericRanges blankRanges = true := by decide
  rcases Bool.or_eq_true_iff.mp h with letter | numeric
  · exact CodeRanges.has_eq_false_of_apart letterRanges_ascending blankRanges_ascending letters letter
  · exact CodeRanges.has_eq_false_of_apart numericRanges_ascending blankRanges_ascending numerics
      numeric

theorem isBlank_eq_false_of_digit? {c : Char} {d : Nat} (h : digit? c = some d) :
    isBlank c = false := by
  have apart : CodeRanges.apart digitRanges blankRanges = true := by decide
  exact CodeRanges.has_eq_false_of_apart digitRanges_ascending blankRanges_ascending apart
    (has_digitRanges_of_digit? h)

/-- The letters and the digits of ASCII. -/
def asciiAlphanumeric : CodeRanges := [(0x30, 0x39), (0x41, 0x5A), (0x61, 0x7A)]

theorem has_asciiAlphanumeric {c : Char} (h : isAlphanumeric c = true) (ascii : c.toNat < 0x80) :
    asciiAlphanumeric.has c = true := by
  have letters : ∀ r ∈ letterRanges, r.1 < 0x80 → r ∈ asciiAlphanumeric := by decide +kernel
  have numerics : ∀ r ∈ numericRanges, r.1 < 0x80 → r ∈ asciiAlphanumeric := by decide +kernel
  rcases Bool.or_eq_true_iff.mp h with letter | numeric
  · obtain ⟨r, mem, low, high⟩ := CodeRanges.has_iff.mp letter
    exact CodeRanges.has_iff.mpr ⟨r, letters r mem (by omega), low, high⟩
  · obtain ⟨r, mem, low, high⟩ := CodeRanges.has_iff.mp numeric
    exact CodeRanges.has_iff.mpr ⟨r, numerics r mem (by omega), low, high⟩

/-- Whether a character of ASCII is alphanumeric is settled by three ranges. -/
theorem isAlphanumeric_eq_false {c : Char}
    (h : c.toNat < 0x80 ∧ asciiAlphanumeric.has c = false) : isAlphanumeric c = false := by
  cases alphanumeric : isAlphanumeric c with
  | false => rfl
  | true => rw [has_asciiAlphanumeric alphanumeric h.1] at h; cases h.2

theorem isPadding_eq_false_of_isBlank {c : Char} (h : isBlank c = false) : isPadding c = false := by
  rw [isPadding, h, Bool.false_and]

/-! ## Trimming -/

/-- A character of a text is still there after trimming, or was trimmed. -/
theorem mem_trim_or {drop : Char → Bool} {t : Text} {c : Char} (h : c ∈ t) :
    c ∈ t.trim drop ∨ drop c = true := by
  have dropped : ∀ {s : Text}, c ∈ s → c ∈ s.dropWhile drop ∨ drop c = true := by
    intro s hs
    rw [← List.takeWhile_append_dropWhile (p := drop) (l := s), List.mem_append] at hs
    rcases hs with front | back
    · exact Or.inr (List.mem_takeWhile_imp front)
    · exact Or.inl back
  rcases dropped h with kept | out
  · rcases dropped (List.mem_reverse.mpr kept) with kept' | out
    · exact Or.inl (List.mem_reverse.mpr kept')
    · exact Or.inr out
  · exact Or.inr out

end Text

namespace Numeral

/-! ## The characters of a numeral -/

/-- The character is a digit or may stand between two. -/
def isDigitChar (c : Char) : Bool := c == '_' || (Text.digit? c).isSome

/-- The character is padding, a sign, an underscore or a digit. -/
def isNumeralChar (c : Char) : Bool := Text.isPadding c || c == '+' || c == '-' || isDigitChar c

theorem isDigitChar_of_digit? {c : Char} {d : Nat} (h : Text.digit? c = some d) :
    isDigitChar c = true := by
  simp [isDigitChar, h]

theorem isNumeralChar_of_isDigitChar {c : Char} (h : isDigitChar c = true) :
    isNumeralChar c = true := by
  simp [isNumeralChar, h]

theorem isDigitChar_of_moreDigits? {t : Text} {ds : List Nat} (h : moreDigits? t = some ds) :
    ∀ c ∈ t, isDigitChar c = true := by
  fun_induction moreDigits? t generalizing ds with
  | case1 => simp
  | case2 c rest ih =>
      obtain ⟨d, hd, more⟩ := Option.bind_eq_some_iff.mp h
      obtain ⟨ds', hds, _⟩ := Option.map_eq_some_iff.mp more
      exact List.forall_mem_cons.mpr
        ⟨rfl, List.forall_mem_cons.mpr ⟨isDigitChar_of_digit? hd, ih hds⟩⟩
  | case3 c rest _ ih =>
      obtain ⟨d, hd, more⟩ := Option.bind_eq_some_iff.mp h
      obtain ⟨ds', hds, _⟩ := Option.map_eq_some_iff.mp more
      exact List.forall_mem_cons.mpr ⟨isDigitChar_of_digit? hd, ih hds⟩

theorem isDigitChar_of_digits? {t : Text} {ds : List Nat} (h : digits? t = some ds) :
    ∀ c ∈ t, isDigitChar c = true := by
  cases t with
  | nil => simp
  | cons c rest =>
      obtain ⟨d, hd, more⟩ := Option.bind_eq_some_iff.mp h
      obtain ⟨ds', hds', _⟩ := Option.map_eq_some_iff.mp more
      exact List.forall_mem_cons.mpr ⟨isDigitChar_of_digit? hd, isDigitChar_of_moreDigits? hds'⟩

theorem isNumeralChar_of_magnitude? {t : Text} {n : Nat} (h : magnitude? t = some n) :
    ∀ c ∈ t, isNumeralChar c = true := by
  obtain ⟨ds, hds, _⟩ := Option.bind_eq_some_iff.mp h
  exact fun c hc => isNumeralChar_of_isDigitChar (isDigitChar_of_digits? hds c hc)

theorem isNumeralChar_of_signed? {t : Text} {n : Int} (h : signed? t = some n) :
    ∀ c ∈ t, isNumeralChar c = true := by
  unfold signed? at h
  split at h
  next t =>
    obtain ⟨m, hm, _⟩ := Option.map_eq_some_iff.mp h
    exact List.forall_mem_cons.mpr ⟨rfl, isNumeralChar_of_magnitude? hm⟩
  next t =>
    obtain ⟨m, hm, _⟩ := Option.map_eq_some_iff.mp h
    exact List.forall_mem_cons.mpr ⟨rfl, isNumeralChar_of_magnitude? hm⟩
  next =>
    obtain ⟨m, hm, _⟩ := Option.map_eq_some_iff.mp h
    exact isNumeralChar_of_magnitude? hm

/-- A numeral is made of the characters of numerals. -/
theorem isNumeralChar_of_value? {t : Text} {n : Int} (h : value? t = some n) :
    ∀ c ∈ t, isNumeralChar c = true := by
  intro c hc
  rcases Text.mem_trim_or hc with kept | padding
  · exact isNumeralChar_of_signed? h c kept
  · simp [isNumeralChar, padding]

/-- A text with a character that no numeral has is no numeral. -/
theorem isNumeral_eq_false_of_mem {t : Text} {c : Char} (hc : c ∈ t)
    (h : isNumeralChar c = false) : isNumeral t = false := by
  cases hv : value? t with
  | none => rw [isNumeral, hv]; rfl
  | some n => rw [isNumeralChar_of_value? hv c hc] at h; cases h

theorem isNumeralChar_eq_false_of_isLetter {c : Char} (h : Text.isLetter c = true) :
    isNumeralChar c = false := by
  have alphanumeric := Text.isAlphanumeric_of_isLetter h
  have padding := Text.isPadding_eq_false_of_isBlank
    (Text.isBlank_eq_false_of_isAlphanumeric alphanumeric)
  have other : ∀ {d : Char}, Text.isAlphanumeric d = false → c ≠ d := by
    rintro d apart rfl
    rw [alphanumeric] at apart
    cases apart
  have plus : c ≠ '+' := other (Text.isAlphanumeric_eq_false (by decide))
  have minus : c ≠ '-' := other (Text.isAlphanumeric_eq_false (by decide))
  have underscore : c ≠ '_' := other (Text.isAlphanumeric_eq_false (by decide))
  simp [isNumeralChar, isDigitChar, padding, Text.digit?_eq_none_of_isLetter h, plus, minus,
    underscore]

end Numeral

end TinyForth
