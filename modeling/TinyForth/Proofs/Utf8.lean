import Mathlib.Data.List.Forall2
import TinyForth.Text.Utf8

/-!
# Reading UTF-8 back

A first byte and the bytes that keep to its bounds are a whole sequence
(`IsSequence`).  What `encodeChar` writes is one, and reading a sequence gives the character
that was written, whatever bytes come after it.  So `decode` reads every text back from its
bytes.
-/

namespace TinyForth.Utf8

/-- The first byte starts a sequence and each of the other bytes keeps to its bounds. -/
def IsSequence (b : UInt8) (tail : List UInt8) : Prop :=
  ∃ bounds, tailBounds? b = some bounds ∧
    List.Forall₂ (fun bound t => bound.1 ≤ t.toNat ∧ t.toNat ≤ bound.2) bounds tail

/-! ## Reading a sequence -/

theorem within_append {bounds : List (Nat × Nat)} {tail : List UInt8} (bs : List UInt8)
    (h : List.Forall₂ (fun bound t => bound.1 ≤ t.toNat ∧ t.toNat ≤ bound.2) bounds tail) :
    within bounds (tail ++ bs) = bounds.length := by
  induction h with
  | nil => rfl
  | cons hbound _ ih => rw [List.cons_append, within, if_pos hbound, ih, List.length_cons]

theorem first_of_isSequence {b : UInt8} {tail : List UInt8} (h : IsSequence b tail)
    (bs : List UInt8) : first b (tail ++ bs) = .char (assemble b tail) tail.length := by
  obtain ⟨bounds, hbounds, htail⟩ := h
  have count : within bounds (tail ++ bs) = tail.length := by
    rw [within_append bs htail, htail.length_eq]
  rw [first, hbounds]
  dsimp only
  rw [count, if_pos htail.length_eq.symm, List.take_left]

/-- The bytes of a character that was read are passed over. -/
theorem decodeFrom_skip (position : Nat) (tail bs : List UInt8) :
    decodeFrom position tail.length (tail ++ bs) = decodeFrom (position + tail.length) 0 bs := by
  induction tail generalizing position with
  | nil => rfl
  | cons t tail ih =>
      rw [List.length_cons, List.cons_append, decodeFrom, ih]
      congr 1
      omega

theorem decodeFrom_of_isSequence {b : UInt8} {tail : List UInt8} (h : IsSequence b tail)
    (position : Nat) (bs : List UInt8) :
    decodeFrom position 0 (b :: tail ++ bs) =
      (decodeFrom (position + 1 + tail.length) 0 bs).map (assemble b tail :: ·) := by
  rw [List.cons_append, decodeFrom, first_of_isSequence h bs]
  dsimp only
  rw [decodeFrom_skip]

/-! ## Writing a sequence -/

theorem toNat_ofNat_of_lt {n : Nat} (h : n < 256) : (UInt8.ofNat n).toNat = n := by
  rw [UInt8.toNat_ofNat']
  exact Nat.mod_eq_of_lt h

theorem ofNat_between {low high n : Nat} (small : n < 256) (above : low ≤ n) (below : n ≤ high) :
    low ≤ (UInt8.ofNat n).toNat ∧ (UInt8.ofNat n).toNat ≤ high := by
  rw [toNat_ofNat_of_lt small]
  exact ⟨above, below⟩

theorem isSequence_one {n : Nat} (h : n < 0x80) : IsSequence (.ofNat n) [] := by
  refine ⟨[], ?_, .nil⟩
  rw [tailBounds?, toNat_ofNat_of_lt (by omega), if_pos h]

theorem isSequence_two {n : Nat} (low : 0x80 ≤ n) (high : n < 0x800) :
    IsSequence (.ofNat (0xC0 + n / 64)) [.ofNat (0x80 + n % 64)] := by
  refine ⟨[(0x80, 0xBF)], ?_, .cons (ofNat_between (by omega) (by omega) (by omega)) .nil⟩
  rw [tailBounds?, toNat_ofNat_of_lt (by omega), if_neg (by omega), if_neg (by omega),
    if_pos (by omega)]

/-- The bounds of the second byte depend on the first at two places: below `0x1000`, where a
shorter sequence would do, and next to the surrogates. -/
theorem isSequence_three {n : Nat} (low : 0x800 ≤ n) (high : n < 0x10000)
    (scalar : n < 0xD800 ∨ 0xDFFF < n) :
    IsSequence (.ofNat (0xE0 + n / 4096)) [.ofNat (0x80 + n / 64 % 64), .ofNat (0x80 + n % 64)] := by
  have last : 0x80 ≤ (UInt8.ofNat (0x80 + n % 64)).toNat ∧
      (UInt8.ofNat (0x80 + n % 64)).toNat ≤ 0xBF :=
    ofNat_between (by omega) (by omega) (by omega)
  unfold IsSequence tailBounds?
  rw [toNat_ofNat_of_lt (by omega), if_neg (by omega), if_neg (by omega), if_neg (by omega)]
  by_cases hE0 : n < 0x1000
  · refine ⟨[(0xA0, 0xBF), (0x80, 0xBF)], ?_, .cons (ofNat_between ?_ ?_ ?_) (.cons last .nil)⟩
    · rw [if_pos (by omega)]
    all_goals omega
  · rw [if_neg (by omega)]
    by_cases hED : 0xD000 ≤ n ∧ n < 0xE000
    · refine ⟨[(0x80, 0x9F), (0x80, 0xBF)], ?_, .cons (ofNat_between ?_ ?_ ?_) (.cons last .nil)⟩
      · rw [if_pos (by omega)]
      all_goals omega
    · refine ⟨[(0x80, 0xBF), (0x80, 0xBF)], ?_, .cons (ofNat_between ?_ ?_ ?_) (.cons last .nil)⟩
      · rw [if_neg (by omega), if_pos (by omega)]
      all_goals omega

/-- Here they depend on it below `0x40000`, where the first byte is the least, and above
`0xFFFFF`, where it is the greatest. -/
theorem isSequence_four {n : Nat} (low : 0x10000 ≤ n) (high : n < 0x110000) :
    IsSequence (.ofNat (0xF0 + n / 262144)) [.ofNat (0x80 + n / 4096 % 64),
      .ofNat (0x80 + n / 64 % 64), .ofNat (0x80 + n % 64)] := by
  have third : 0x80 ≤ (UInt8.ofNat (0x80 + n / 64 % 64)).toNat ∧
      (UInt8.ofNat (0x80 + n / 64 % 64)).toNat ≤ 0xBF :=
    ofNat_between (by omega) (by omega) (by omega)
  have last : 0x80 ≤ (UInt8.ofNat (0x80 + n % 64)).toNat ∧
      (UInt8.ofNat (0x80 + n % 64)).toNat ≤ 0xBF :=
    ofNat_between (by omega) (by omega) (by omega)
  unfold IsSequence tailBounds?
  rw [toNat_ofNat_of_lt (by omega), if_neg (by omega), if_neg (by omega), if_neg (by omega),
    if_neg (by omega), if_neg (by omega), if_neg (by omega)]
  by_cases hF0 : n < 0x40000
  · refine ⟨[(0x90, 0xBF), (0x80, 0xBF), (0x80, 0xBF)], ?_,
      .cons (ofNat_between ?_ ?_ ?_) (.cons third (.cons last .nil))⟩
    · rw [if_pos (by omega)]
    all_goals omega
  · rw [if_neg (by omega)]
    by_cases hF4 : n < 0x100000
    · refine ⟨[(0x80, 0xBF), (0x80, 0xBF), (0x80, 0xBF)], ?_,
        .cons (ofNat_between ?_ ?_ ?_) (.cons third (.cons last .nil))⟩
      · rw [if_pos (by omega)]
      all_goals omega
    · refine ⟨[(0x80, 0x8F), (0x80, 0xBF), (0x80, 0xBF)], ?_,
        .cons (ofNat_between ?_ ?_ ?_) (.cons third (.cons last .nil))⟩
      · rw [if_neg (by omega), if_pos (by omega)]
      all_goals omega

/-- What is written for a character is one sequence. -/
theorem isSequence_encodeChar (c : Char) :
    ∃ b tail, encodeChar c = b :: tail ∧ IsSequence b tail ∧ assemble b tail = c := by
  obtain ⟨bound, noSurrogate⟩ := Text.toNat_scalar c
  have scalar : c.toNat < 0xD800 ∨ 0xDFFF < c.toNat := by omega
  have back : Char.ofNat c.toNat = c := Char.ofNat_toNat c
  unfold encodeChar
  generalize c.toNat = n at bound scalar back
  dsimp only
  split
  next h1 =>
    refine ⟨_, _, rfl, isSequence_one h1, ?_⟩
    rw [assemble, List.foldl_nil, List.length_nil, leadBits, toNat_ofNat_of_lt (by omega), back]
  next h1 =>
    split
    next h2 =>
      refine ⟨_, _, rfl, isSequence_two (by omega) h2, ?_⟩
      simp only [assemble, List.foldl_cons, List.foldl_nil, List.length_cons, List.length_nil,
        leadBits]
      rw [toNat_ofNat_of_lt (by omega), toNat_ofNat_of_lt (by omega),
        show (0xC0 + n / 64) % 32 * 64 + (0x80 + n % 64) % 64 = n by omega, back]
    next h2 =>
      split
      next h3 =>
        refine ⟨_, _, rfl, isSequence_three (by omega) h3 scalar, ?_⟩
        simp only [assemble, List.foldl_cons, List.foldl_nil, List.length_cons, List.length_nil,
          leadBits]
        rw [toNat_ofNat_of_lt (by omega), toNat_ofNat_of_lt (by omega),
          toNat_ofNat_of_lt (by omega),
          show ((0xE0 + n / 4096) % 16 * 64 + (0x80 + n / 64 % 64) % 64) * 64 +
            (0x80 + n % 64) % 64 = n by omega, back]
      next h3 =>
        refine ⟨_, _, rfl, isSequence_four (by omega) bound, ?_⟩
        simp only [assemble, List.foldl_cons, List.foldl_nil, List.length_cons, List.length_nil,
          leadBits]
        rw [toNat_ofNat_of_lt (by omega), toNat_ofNat_of_lt (by omega),
          toNat_ofNat_of_lt (by omega), toNat_ofNat_of_lt (by omega),
          show (((0xF0 + n / 262144) % 8 * 64 + (0x80 + n / 4096 % 64) % 64) * 64 +
            (0x80 + n / 64 % 64) % 64) * 64 + (0x80 + n % 64) % 64 = n by omega, back]

/-- Reading what was written gives the text back. -/
theorem decode_encode (t : Text) : decode (encode t) = .ok t := by
  have from_ : ∀ position, decodeFrom position 0 (encode t) = .ok t := by
    induction t with
    | nil => intro position; rfl
    | cons c t ih =>
        intro position
        obtain ⟨b, tail, written, sequence, assembled⟩ := isSequence_encodeChar c
        rw [encode, List.flatMap_cons, written, decodeFrom_of_isSequence sequence, assembled]
        rw [← encode, ih]
        rfl
  exact from_ 0

end TinyForth.Utf8
