import TinyForth.Proofs.Acceptance
import TinyForth.Proofs.Words

/-!
# Which bytes are UTF-8

Reading is the exact inverse of writing.  Every sequence that keeps to the bounds of its first byte
is what is written for some character (`encodeChar_assemble`), so reading accepts nothing that
writing does not give.  And bytes begin the sequence of some character exactly if those after the
first keep to its bounds so far (`begins_iff`), since the bytes that are missing can be chosen: the
least within their bounds will do.

So the count that reading makes is the length of the longest beginning of a character, and a fault
is described without the bounds (`Faulty`).  Reading goes from character to character.  It comes to
the end of the bytes or to the first place where no character begins (`decodeFrom_cases`).
-/

namespace TinyForth

namespace Utf8

/-! ## The table of first bytes -/

/-- The bounds after a first byte.  Those of the second byte are narrower where a shorter sequence
would do, next to the surrogates, and next to the last code point. -/
inductive Row (n : Nat) : List (Nat × Nat) → Prop where
  | one : n < 0x80 → Row n []
  | two : 0xC2 ≤ n → n < 0xE0 → Row n [(0x80, 0xBF)]
  | three {low high : Nat} : 0xE0 ≤ n → n < 0xF0 → 0x80 ≤ low → low ≤ high → high ≤ 0xBF →
      (n = 0xE0 → 0xA0 ≤ low) → (n = 0xED → high ≤ 0x9F) → Row n [(low, high), (0x80, 0xBF)]
  | four {low high : Nat} : 0xF0 ≤ n → n ≤ 0xF4 → 0x80 ≤ low → low ≤ high → high ≤ 0xBF →
      (n = 0xF0 → 0x90 ≤ low) → (n = 0xF4 → high ≤ 0x8F) →
      Row n [(low, high), (0x80, 0xBF), (0x80, 0xBF)]

theorem row_of_tailBounds? {b : UInt8} {bounds : List (Nat × Nat)}
    (h : tailBounds? b = some bounds) : Row b.toNat bounds := by
  unfold tailBounds? at h
  dsimp only at h
  repeat' split at h
  all_goals cases h
  all_goals constructor <;> omega

/-! ## Every sequence is written for a character -/

theorem ofNat_eq {b : UInt8} {n : Nat} (h : n = b.toNat) : UInt8.ofNat n = b := by
  rw [h, UInt8.ofNat_toNat]

/-- Reading a sequence and writing the character gives the sequence back. -/
theorem encodeChar_assemble {b : UInt8} {tail : List UInt8} (h : IsSequence b tail) :
    encodeChar (assemble b tail) = b :: tail := by
  obtain ⟨bounds, found, keep⟩ := h
  cases row_of_tailBounds? found with
  | one small =>
      cases keep
      have value : assemble b [] = .ofNat b.toNat := rfl
      rw [value, encodeChar, Text.toNat_ofNat_of_scalar (by omega) (by omega), if_pos small,
        UInt8.ofNat_toNat]
  | two _ _ =>
      obtain ⟨⟩ | @⟨_, t, _, _, ht, ⟨⟩⟩ := keep
      have value : assemble b [t] = .ofNat (b.toNat % 32 * 64 + t.toNat % 64) := rfl
      dsimp only at ht
      rw [value, encodeChar, Text.toNat_ofNat_of_scalar (by omega) (by omega), if_neg (by omega),
        if_pos (by omega), ofNat_eq (b := b) (by omega), ofNat_eq (b := t) (by omega)]
  | three _ _ _ _ _ _ _ =>
      obtain ⟨⟩ | @⟨_, t, _, _, ht, ⟨⟩ | @⟨_, u, _, _, hu, ⟨⟩⟩⟩ := keep
      have value : assemble b [t, u] =
        .ofNat ((b.toNat % 16 * 64 + t.toNat % 64) * 64 + u.toNat % 64) := rfl
      dsimp only at ht hu
      rw [value, encodeChar, Text.toNat_ofNat_of_scalar (by omega) (by omega), if_neg (by omega),
        if_neg (by omega), if_pos (by omega), ofNat_eq (b := b) (by omega),
        ofNat_eq (b := t) (by omega), ofNat_eq (b := u) (by omega)]
  | four _ _ _ _ _ _ _ =>
      obtain ⟨⟩ | @⟨_, t, _, _, ht, ⟨⟩ | @⟨_, u, _, _, hu, ⟨⟩ | @⟨_, v, _, _, hv, ⟨⟩⟩⟩⟩ := keep
      have value : assemble b [t, u, v] =
        .ofNat (((b.toNat % 8 * 64 + t.toNat % 64) * 64 + u.toNat % 64) * 64 + v.toNat % 64) := rfl
      dsimp only at ht hu hv
      rw [value, encodeChar, Text.toNat_ofNat_of_scalar (by omega) (by omega), if_neg (by omega),
        if_neg (by omega), if_neg (by omega), ofNat_eq (b := b) (by omega),
        ofNat_eq (b := t) (by omega), ofNat_eq (b := u) (by omega), ofNat_eq (b := v) (by omega)]

theorem isSequence_iff {b : UInt8} {tail : List UInt8} :
    IsSequence b tail ↔ ∃ c, encodeChar c = b :: tail := by
  constructor
  · intro h
    exact ⟨_, encodeChar_assemble h⟩
  · rintro ⟨c, written⟩
    obtain ⟨b', tail', written', sequence, _⟩ := isSequence_encodeChar c
    obtain ⟨rfl, rfl⟩ := List.cons.inj (written.symm.trans written')
    exact sequence

/-! ## Beginnings of sequences -/

theorem within_nil (bounds : List (Nat × Nat)) : within bounds [] = 0 := by
  cases bounds <;> rfl

theorem within_le_length (bounds : List (Nat × Nat)) (bs : List UInt8) :
    within bounds bs ≤ bs.length := by
  induction bounds generalizing bs with
  | nil => exact Nat.zero_le _
  | cons bound bounds ih =>
      cases bs with
      | nil => exact Nat.le_refl _
      | cons b bs =>
          rw [within]
          split
          · exact Nat.succ_le_succ (ih bs)
          · exact Nat.zero_le _

/-- More bytes after some bytes can only add to those that keep to their bounds. -/
theorem within_le_append (bounds : List (Nat × Nat)) (run bs : List UInt8) :
    within bounds run ≤ within bounds (run ++ bs) := by
  induction bounds generalizing run with
  | nil => exact Nat.zero_le _
  | cons bound bounds ih =>
      cases run with
      | nil => exact Nat.zero_le _
      | cons b run =>
          rw [List.cons_append, within, within]
          split
          · exact Nat.succ_le_succ (ih run)
          · exact Nat.le_refl _

theorem length_take_within (bounds : List (Nat × Nat)) (bs : List UInt8) :
    (bs.take (within bounds bs)).length = within bounds bs := by
  rw [List.length_take, Nat.min_eq_left (within_le_length bounds bs)]

/-- The bytes that are counted keep to their bounds. -/
theorem within_take (bounds : List (Nat × Nat)) (bs : List UInt8) :
    within bounds (bs.take (within bounds bs)) = within bounds bs := by
  induction bounds generalizing bs with
  | nil => rfl
  | cons bound bounds ih =>
      cases bs with
      | nil => rfl
      | cons b bs =>
          rw [within]
          split
          next keeps => rw [List.take_succ_cons, within, if_pos keeps, ih]
          next => rfl

theorem within_take_eq_length (bounds : List (Nat × Nat)) (bs : List UInt8) :
    within bounds (bs.take (within bounds bs)) = (bs.take (within bounds bs)).length := by
  rw [within_take, length_take_within]

/-- The least byte within each of some bounds. -/
def leastBytes (bounds : List (Nat × Nat)) : List UInt8 := bounds.map fun bound => .ofNat bound.1

/-- The bytes that are still to come can be chosen. -/
theorem forall₂_completed {bounds : List (Nat × Nat)} {run : List UInt8}
    (fits : ∀ bound ∈ bounds, bound.1 ≤ bound.2 ∧ bound.2 < 256)
    (keeps : within bounds run = run.length) :
    List.Forall₂ (fun bound t => bound.1 ≤ t.toNat ∧ t.toNat ≤ bound.2) bounds
      (run ++ leastBytes (bounds.drop run.length)) := by
  induction bounds generalizing run with
  | nil =>
      cases run with
      | nil => exact .nil
      | cons b run => cases keeps
  | cons bound bounds ih =>
      obtain ⟨⟨ordered, small⟩, later⟩ := List.forall_mem_cons.mp fits
      cases run with
      | nil =>
          have rest := ih later (within_nil bounds)
          exact .cons (ofNat_between (by omega) (Nat.le_refl _) ordered) rest
      | cons b run =>
          rw [within] at keeps
          split at keeps
          next here => exact .cons here (ih later (Nat.succ.inj keeps))
          next => cases keeps

theorem within_of_forall₂ {bounds : List (Nat × Nat)} {run bs : List UInt8}
    (h : List.Forall₂ (fun bound t => bound.1 ≤ t.toNat ∧ t.toNat ≤ bound.2) bounds (run ++ bs)) :
    within bounds run = run.length := by
  induction run generalizing bounds with
  | nil => exact within_nil bounds
  | cons b run ih =>
      cases h with
      | cons here later => rw [within, if_pos here, ih later, List.length_cons]

theorem fits_of_tailBounds? {b : UInt8} {bounds : List (Nat × Nat)}
    (h : tailBounds? b = some bounds) : ∀ bound ∈ bounds, bound.1 ≤ bound.2 ∧ bound.2 < 256 := by
  cases row_of_tailBounds? h with
  | one _ => simp
  | two _ _ => simp
  | three _ _ _ _ _ _ _ => simp; omega
  | four _ _ _ _ _ _ _ => simp; omega

/-- Bytes begin a character exactly if those after the first keep to its bounds. -/
theorem begins_iff {b : UInt8} {run : List UInt8} :
    (∃ c, b :: run <+: encodeChar c) ↔
      ∃ bounds, tailBounds? b = some bounds ∧ within bounds run = run.length := by
  constructor
  · rintro ⟨c, bs, written⟩
    obtain ⟨bounds, found, keep⟩ := isSequence_iff.mpr ⟨c, written.symm⟩
    exact ⟨bounds, found, within_of_forall₂ keep⟩
  · rintro ⟨bounds, found, keeps⟩
    have sequence : IsSequence b (run ++ leastBytes (bounds.drop run.length)) :=
      ⟨bounds, found, forall₂_completed (fits_of_tailBounds? found) keeps⟩
    exact ⟨_, _, (encodeChar_assemble sequence).symm⟩

/-! ## The first character or the first fault -/

/-- What is wrong with some bytes, and how many of them are wrong. -/
inductive Faulty : (rest faulty : List UInt8) → Reason → Prop where
  /-- No character begins with the first byte. -/
  | startByte {b : UInt8} {rest : List UInt8} : (∀ c, ¬ [b] <+: encodeChar c) →
      Faulty (b :: rest) [b] .startByte
  /-- All the bytes there are begin a character and are not the whole of it. -/
  | endOfData {rest : List UInt8} {c : Char} : rest ≠ [] → rest <+: encodeChar c →
      rest ≠ encodeChar c → Faulty rest rest .endOfData
  /-- The bytes begin a character and are the most that do, and there are more bytes. -/
  | continuation {rest faulty : List UInt8} {c : Char} : faulty ≠ [] → faulty <+: rest →
      faulty ≠ rest → faulty <+: encodeChar c →
      (∀ run d, run <+: rest → run <+: encodeChar d → run <+: faulty) →
      Faulty rest faulty .continuation

theorem encodeChar_of_first {b : UInt8} {bs : List UInt8} {c : Char} {n : Nat}
    (h : first b bs = .char c n) : encodeChar c = b :: bs.take n ∧ n ≤ bs.length := by
  unfold first at h
  split at h
  next => cases h
  next bounds found =>
    dsimp only at h
    split at h
    next whole =>
      cases h
      have keep :=
        forall₂_completed (fits_of_tailBounds? found) (within_take_eq_length bounds bs)
      rw [length_take_within, whole, List.drop_length, leastBytes, List.map_nil, List.append_nil] at keep
      rw [whole]
      exact ⟨encodeChar_assemble ⟨bounds, found, keep⟩, whole ▸ within_le_length bounds bs⟩
    next =>
      split at h <;> cases h

/-- No more bytes begin a character than are counted. -/
theorem longest_of_within {b : UInt8} {bs run : List UInt8} {bounds : List (Nat × Nat)} {d : Char}
    (found : tailBounds? b = some bounds) (inBytes : run <+: b :: bs)
    (inCharacter : run <+: encodeChar d) : run <+: b :: bs.take (within bounds bs) := by
  cases run with
  | nil => exact List.nil_prefix
  | cons b' run =>
      obtain ⟨rfl, inTail⟩ := List.cons_prefix_cons.mp inBytes
      obtain ⟨bounds', found', keeps⟩ := begins_iff.mp ⟨d, inCharacter⟩
      obtain rfl : bounds = bounds' := Option.some.inj (found.symm.trans found')
      obtain ⟨later, rfl⟩ := inTail
      have counted : run.length ≤ within bounds (run ++ later) :=
        keeps ▸ within_le_append bounds run later
      exact List.cons_prefix_cons.mpr ⟨rfl, List.prefix_take_iff.mpr ⟨⟨later, rfl⟩, counted⟩⟩

/-- If a character begins the bytes, it is the one that is read. -/
theorem first_of_prefix {b : UInt8} {bs : List UInt8} {c : Char} (h : encodeChar c <+: b :: bs) :
    ∃ n, first b bs = .char c n := by
  obtain ⟨b', tail, written, sequence, assembled⟩ := isSequence_encodeChar c
  rw [written, List.cons_prefix_cons] at h
  obtain ⟨rfl, rest, rfl⟩ := h
  exact ⟨_, assembled ▸ first_of_isSequence sequence rest⟩

theorem no_character_of_first {b : UInt8} {bs : List UInt8} {n : Nat} {reason : Reason}
    (h : first b bs = .fault n reason) (c : Char) : ¬ encodeChar c <+: b :: bs := by
  intro begins
  obtain ⟨m, read⟩ := first_of_prefix begins
  rw [h] at read
  cases read

theorem faulty_of_first {b : UInt8} {bs : List UInt8} {n : Nat} {reason : Reason}
    (h : first b bs = .fault n reason) : Faulty (b :: bs) (b :: bs.take n) reason := by
  have noCharacter := no_character_of_first h
  unfold first at h
  split at h
  next none =>
    cases h
    refine .startByte fun c begins => ?_
    obtain ⟨bounds, found, _⟩ := begins_iff.mp ⟨c, begins⟩
    rw [none] at found
    cases found
  next bounds found =>
    obtain ⟨c, begins⟩ := begins_iff.mpr ⟨bounds, found, within_take_eq_length bounds bs⟩
    dsimp only at h
    split at h
    next => cases h
    next =>
      split at h
      next whole =>
        cases h
        rw [whole, List.take_length] at begins ⊢
        refine .endOfData (List.cons_ne_nil b bs) begins fun same => ?_
        exact noCharacter c (same ▸ List.prefix_rfl)
      next more =>
        cases h
        refine .continuation (List.cons_ne_nil _ _) ?_ ?_ begins ?_
        · exact List.cons_prefix_cons.mpr ⟨rfl, List.take_prefix _ _⟩
        · intro same
          have length := length_take_within bounds bs
          rw [(List.cons.inj same).2] at length
          exact more length.symm
        · intro run d inBytes inCharacter
          exact longest_of_within found inBytes inCharacter

/-! ## The whole of the bytes -/

/-- Reading a character goes on after its bytes. -/
theorem decodeFrom_of_first {b : UInt8} {bs : List UInt8} {c : Char} {n : Nat}
    (h : first b bs = .char c n) :
    b :: bs = encodeChar c ++ bs.drop n ∧
      ∀ position, decodeFrom position 0 (b :: bs) =
        (decodeFrom (position + (encodeChar c).length) 0 (bs.drop n)).map (c :: ·) := by
  obtain ⟨written, enough⟩ := encodeChar_of_first h
  have length : (bs.take n).length = n := by rw [List.length_take, Nat.min_eq_left enough]
  constructor
  · rw [written, List.cons_append, List.take_append_drop]
  · intro position
    have skip := decodeFrom_skip (position + 1) (bs.take n) (bs.drop n)
    rw [List.take_append_drop, length] at skip
    rw [decodeFrom, h]
    dsimp only
    rw [skip, written, List.length_cons, length, Nat.add_assoc, Nat.add_comm 1 n]

/-- Bytes are the bytes of a text, or the bytes of a text with a fault after them. -/
theorem decodeFrom_cases (position : Nat) (bs : List UInt8) :
    (∃ t, bs = encode t ∧ decodeFrom position 0 bs = .ok t) ∨
    ∃ before b rest n reason, bs = encode before ++ b :: rest ∧ first b rest = .fault n reason ∧
      decodeFrom position 0 bs =
        .error ⟨position + (encode before).length, b :: rest.take n, reason⟩ := by
  match bs with
  | [] => exact .inl ⟨[], rfl, rfl⟩
  | b :: bs =>
      cases h : first b bs with
      | fault n reason =>
          refine .inr ⟨[], b, bs, n, reason, rfl, h, ?_⟩
          rw [decodeFrom, h]
          rfl
      | char c n =>
          obtain ⟨whole, read⟩ := decodeFrom_of_first h
          rcases decodeFrom_cases (position + (encodeChar c).length) (bs.drop n) with
            ⟨t, later, decoded⟩ | ⟨before, b', rest, m, reason, later, fault, failed⟩
          · refine .inl ⟨c :: t, ?_, ?_⟩
            · rw [whole, later, encode, encode, List.flatMap_cons]
            · rw [read, decoded]
              rfl
          · refine .inr ⟨c :: before, b', rest, m, reason, ?_, fault, ?_⟩
            · rw [whole, later, encode, encode, List.flatMap_cons, List.append_assoc]
            · rw [read, failed, encode, encode, List.flatMap_cons, List.length_append,
                Nat.add_assoc]
              rfl
termination_by bs.length
decreasing_by
  simp only [List.length_drop, List.length_cons]
  omega

/-- What is known of the fault that is reported. -/
theorem faulty_of_decode {bs : List UInt8} {fault : Fault} (h : decode bs = .error fault) :
    ∃ before rest, bs = encode before ++ rest ∧ fault.position = (encode before).length ∧
      (∀ c, ¬ encodeChar c <+: rest) ∧ Faulty rest fault.bytes fault.reason := by
  rcases decodeFrom_cases 0 bs with
    ⟨t, _, decoded⟩ | ⟨before, b, rest, n, reason, split, first, failed⟩
  · rw [decode, decoded] at h
    cases h
  · rw [decode, failed] at h
    cases h
    exact ⟨before, b :: rest, split, Nat.zero_add _, no_character_of_first first,
      faulty_of_first first⟩

theorem exists_fault_iff {bs : List UInt8} :
    (∃ fault, decode bs = .error fault) ↔ ¬ ∃ t, bs = encode t := by
  constructor
  · rintro ⟨fault, failed⟩ ⟨t, rfl⟩
    rw [decode_encode] at failed
    cases failed
  · intro none
    rcases decodeFrom_cases 0 bs with ⟨t, written, _⟩ | ⟨_, _, _, _, _, _, _, failed⟩
    · exact absurd ⟨t, written⟩ none
    · exact ⟨_, failed⟩

end Utf8

namespace Command

/-- A source file is read exactly if its bytes are those of a text, and then its words are the words
of the text.  If they are not, the fault that is reported lies after the bytes of a text and no
character begins there.  The faulty bytes are a first byte that begins no character, or all that is
left of the file if it breaks off inside a character, or else the most bytes that begin one. -/
theorem reading_accepts_exactly_utf8 (tree : FileTree) (args : List Text) (name shown : Text)
    (bytes : List UInt8) (named : args[1]? = some name) (readable : tree.read name = .ok bytes) :
    let reading := readSource tree args shown
    ((∃ fault, reading = .error (.failed (.encoding fault))) ↔
      ¬ ∃ source, bytes = Utf8.encode source) ∧
    (∀ source, bytes = Utf8.encode source → reading = .ok source.words) ∧
    (∀ fault, reading = .error (.failed (.encoding fault)) →
      ∃ before rest, bytes = Utf8.encode before ++ rest ∧
        fault.position = (Utf8.encode before).length ∧
        (∀ c, ¬ Utf8.encodeChar c <+: rest) ∧
        Utf8.Faulty rest fault.bytes fault.reason) := by
  intro reading
  have faults : ∀ fault, reading = .error (.failed (.encoding fault)) ↔
      Utf8.decode bytes = .error fault := by
    intro fault
    cases decoded : Utf8.decode bytes with
    | ok source => simp [reading, readSource_of_decode named readable decoded]
    | error fault' => simp [reading, readSource_of_fault named readable decoded]
  refine ⟨?_, ?_, ?_⟩
  · simp only [faults]
    exact Utf8.exists_fault_iff
  · rintro source rfl
    rw [← Compiler.sourceWords_eq]
    exact readSource_of_decode named readable (Utf8.decode_encode source) shown
  · intro fault failed
    exact Utf8.faulty_of_decode ((faults fault).mp failed)

/-- The second byte of a sequence of three is below its bounds, which are narrower after the first
byte `0xE0`.  The first byte alone is at fault. -/
theorem reading_of_overlong_sequence :
    let bytes : List UInt8 := [0x61, 0xE0, 0x80, 0x80]
    let tree := FileTree.ofList [("p.4th".toList, .file bytes)]
    let args := ["forth".toList, "p.4th".toList]
    readSource tree args [] = .error (.failed (.encoding ⟨1, [0xE0], .continuation⟩)) ∧
      (¬ ∃ source, bytes = Utf8.encode source) ∧
      ∃ before rest, bytes = Utf8.encode before ++ rest ∧ 1 = (Utf8.encode before).length ∧
        (∀ c, ¬ Utf8.encodeChar c <+: rest) ∧ Utf8.Faulty rest [0xE0] .continuation := by
  intro bytes tree args
  have failed : readSource tree args [] =
      .error (.failed (.encoding ⟨1, [0xE0], .continuation⟩)) := rfl
  obtain ⟨exactly, _, described⟩ :=
    reading_accepts_exactly_utf8 tree args "p.4th".toList [] bytes rfl rfl
  exact ⟨failed, exactly.mp ⟨_, failed⟩, described _ failed⟩

end Command

end TinyForth
