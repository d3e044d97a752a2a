/-!
# Texts and character classes

A text is the list of its characters, so every operation on texts is an
operation on lists and closed facts about them are decided by evaluation.  A
character class is a list of inclusive ranges of code points.  The classes that
need a long table (letters, digits, printing characters) have a module each, and
all of them are read through `CodeRanges.has`.
-/

namespace TinyForth

/-- A text: its characters in order. -/
abbrev Text := List Char

/-- A class of characters, as inclusive ranges of code points in ascending order. -/
abbrev CodeRanges := List (Nat × Nat)

namespace CodeRanges

/-- Some range of the class holds the character. -/
def has (ranges : CodeRanges) (c : Char) : Bool :=
  ranges.any fun r => decide (r.1 ≤ c.toNat) && decide (c.toNat ≤ r.2)

theorem has_iff {ranges : CodeRanges} {c : Char} :
    ranges.has c = true ↔ ∃ r ∈ ranges, r.1 ≤ c.toNat ∧ c.toNat ≤ r.2 := by
  simp [has]

/-- No code point lies in a range of both classes. -/
def disjoint (xs ys : CodeRanges) : Bool :=
  xs.all fun x => ys.all fun y => decide (x.2 < y.1) || decide (y.2 < x.1)

/-- Disjoint classes have no character in common. -/
theorem has_eq_false_of_disjoint {xs ys : CodeRanges} (apart : disjoint xs ys = true) {c : Char}
    (inX : xs.has c = true) : ys.has c = false := by
  cases inY : ys.has c with
  | false => rfl
  | true =>
    obtain ⟨x, hx, _, _⟩ := has_iff.mp inX
    obtain ⟨y, hy, _, _⟩ := has_iff.mp inY
    have between := List.all_eq_true.mp (List.all_eq_true.mp apart x hx) y hy
    simp only [Bool.or_eq_true, decide_eq_true_eq] at between
    omega

end CodeRanges

namespace Text

/-! ## Code points -/

/-- The code point of a character is not a surrogate. -/
theorem toNat_scalar (c : Char) :
    c.toNat < 0x110000 ∧ ¬ (0xD800 ≤ c.toNat ∧ c.toNat ≤ 0xDFFF) := by
  rcases c.valid with low | ⟨above, below⟩
  · exact ⟨Nat.lt_trans low (by decide), fun inside => absurd low (Nat.not_lt.mpr inside.1)⟩
  · exact ⟨below, fun inside => absurd above (Nat.not_lt.mpr inside.2)⟩

/-- A code point that is not a surrogate is that of a character. -/
theorem toNat_ofNat_of_scalar {n : Nat} (range : n < 0x110000)
    (scalar : ¬ (0xD800 ≤ n ∧ n ≤ 0xDFFF)) : (Char.ofNat n).toNat = n := by
  have valid : n.isValidChar := by
    unfold Nat.isValidChar
    omega
  rw [Char.ofNat, dif_pos valid]
  rfl

/-! ## Parts of texts -/

/-- The text without the characters of a class at its two ends. -/
def trim (drop : Char → Bool) (t : Text) : Text :=
  ((t.dropWhile drop).reverse.dropWhile drop).reverse

/-- The last digits of a number in a base, as many as the width, with zeros in front. -/
def padded (base : Nat) : (width n : Nat) → Text
  | 0, _ => []
  | width + 1, n => padded base width (n / base) ++ [Nat.digitChar (n % base)]

/-- Lines joined by single newlines, with none after the last. -/
def ofLines (ls : List Text) : Text := List.intercalate ['\n'] ls

/-- The pieces between the newlines, one more than there are newlines. -/
def pieces (t : Text) : List Text := t.splitOn '\n'

example : padded 16 2 0xA = ['0', 'a'] ∧ padded 10 4 2022 = ['2', '0', '2', '2'] := by decide

end Text

end TinyForth
