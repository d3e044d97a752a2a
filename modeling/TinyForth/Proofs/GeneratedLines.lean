import TinyForth.Proofs.Generation
import TinyForth.Session

/-!
# The lines of any words, in any vocabulary

In a vocabulary that gives code to numerals or to variables with a mark, a word is still written
in one way at most (`WrittenAs`), and a word of no kind at all is written as nothing
(`not_exists_writtenAs_iff`).

Generating takes the words in turn and adds the lines of each to the lines that are there.  It
stops at the first word of no kind, and what it added before stays.  So it can be interrupted
after any number of words and taken up again (`generate_append`).
-/

namespace TinyForth

namespace Word

variable {v : Vocabulary} {w : Word}

theorem ofNoKind_of_error {e : Error} (h : meaning v w = .error e) :
    OfNoKind v w ∧ e = if w = [] ∨ w = ['!'] then .empty else .unknown w := by
  obtain ⟨noKind, error⟩ := meaning_error_cases h
  simp only [name_eq_nil_iff] at error
  exact ⟨noKind, error⟩

theorem not_exists_writtenAs_iff : (¬ ∃ ls, WrittenAs v w ls) ↔ OfNoKind v w := by
  constructor
  · intro none
    cases h : meaning v w with
    | ok m => exact absurd ⟨_, writtenAs_of_meaning h⟩ none
    | error e => exact (meaning_error_cases h).1
  · rintro h ⟨ls, written⟩
    exact h.not_grammatical ⟨ls, written.translates⟩

end Word

namespace Code

variable {v : Vocabulary}

/-! ## Words in turn -/

/-- The words up to the first of no kind are written in turn. -/
theorem exists_written (v : Vocabulary) (ws : List Word) :
    ∃ done ts rest, ws = done ++ rest ∧ List.Forall₂ (Word.WrittenAs v) done ts ∧
      (generate v ws).lines = ts.flatten ∧
      (rest = [] ∧ (generate v ws).error? = none ∨
        ∃ w later, rest = w :: later ∧ Word.OfNoKind v w ∧
          (generate v ws).error? =
            some (if w = [] ∨ w = ['!'] then .empty else .unknown w)) := by
  obtain ⟨done, ms, rest, split, meanings, lines, stop⟩ := generate_cases v ws
  refine ⟨done, ms.map Word.Meaning.lines, rest, split, ?_, lines, stop.imp_right ?_⟩
  · exact List.forall₂_map_right_iff.mpr (meanings.imp fun _ _ => Word.writtenAs_of_meaning)
  · rintro ⟨w, later, e, here, bad, failed⟩
    obtain ⟨noKind, rfl⟩ := Word.ofNoKind_of_error bad
    exact ⟨w, later, here, noKind, failed⟩

/-- Code is generated in two parts as it is in one, unless the first part fails. -/
theorem generate_append (v : Vocabulary) (a b : List Word) :
    generate v (a ++ b) =
      if (generate v a).error? = none then
        ⟨(generate v a).lines ++ (generate v b).lines, (generate v b).error?⟩
      else generate v a := by
  induction a with
  | nil => rfl
  | cons w a ih =>
      rw [List.cons_append]
      cases h : w.meaning v with
      | error e => rw [generate_cons_of_error h, generate_cons_of_error h, if_neg (by simp)]
      | ok m =>
          rw [generate_cons_of_meaning h, generate_cons_of_meaning h, ih]
          split
          · rw [List.append_assoc]
          · rfl

end Code

namespace Session

/-- Generating keeps the lines that are there and adds the lines of the words before the first word
of no kind, each word by itself and in turn, or of all the words if there is none.  The word of no
kind is the one the error is about.  So to generate two lists of words together is to generate the
first and, if that did not fail, then the second. -/
theorem generating_stops_at_first_word_of_no_kind (s : Session) :
    let v := s.vocabulary
    let after := s.step .generate
    (∀ w ls ls', Word.WrittenAs v w ls → Word.WrittenAs v w ls' → ls = ls') ∧
    (∀ w, (¬ ∃ ls, Word.WrittenAs v w ls) ↔ Word.OfNoKind v w) ∧
    (∃ done ts rest, s.words = done ++ rest ∧ List.Forall₂ (Word.WrittenAs v) done ts ∧
      after.1 = { s with lines := s.lines ++ ts.flatten } ∧
      (rest = [] ∧ after.2 = none ∨
        ∃ w later, rest = w :: later ∧ Word.OfNoKind v w ∧
          after.2 = some (.word (if w = [] ∨ w = ['!'] then .empty else .unknown w)))) ∧
    (Failure.word .empty).message = "string index out of range".toList ∧
    (∀ w, (Failure.word (.unknown w)).message =
      "'".toList ++ w ++ "' is not a valid word".toList) ∧
    (∀ a b, s.words = a ++ b →
      let first := ({ s with words := a } : Session).step .generate
      let second := ({ first.1 with words := b } : Session).step .generate
      after = if first.2 = none then ({ second.1 with words := s.words }, second.2)
        else ({ first.1 with words := s.words }, first.2)) := by
  intro v after
  refine ⟨fun w ls ls' => Word.WrittenAs.unique, fun w => Word.not_exists_writtenAs_iff, ?_, rfl,
    fun _ => rfl, ?_⟩
  · obtain ⟨done, ts, rest, split, written, lines, stop⟩ := Code.exists_written v s.words
    refine ⟨done, ts, rest, split, written, ?_, ?_⟩
    · simp only [after, step, lines, v]
    · refine stop.imp ?_ ?_
      · rintro ⟨empty, noError⟩
        exact ⟨empty, congrArg (Option.map Failure.word) noError⟩
      · rintro ⟨w, later, here, noKind, error⟩
        exact ⟨w, later, here, noKind, congrArg (Option.map Failure.word) error⟩
  · intro a b split first second
    have noFailure : first.2 = none ↔ (Code.generate v a).error? = none := Option.map_eq_none_iff
    simp only [noFailure]
    simp only [after, first, second, step, split, Code.generate_append]
    split
    · rw [List.append_assoc]
    · rfl

/-- A numeral and a store that have code, and after them the empty word.  The first two words are
generated as one part and the last two as the other. -/
theorem generating_of_overlapping_kinds :
    let a := ["7".toList, "x!".toList]
    let b := ["".toList, "?".toList]
    let s : Session := {
      words := a ++ b
      lines := ["start".toList]
      vocabulary := (Vocabulary.standard.define "7".toList ["drop".toList]).define "x!".toList
        ["nop".toList] }
    (({ s with words := a } : Session).step .generate).2 = none ∧
      (s.step .generate).1.lines =
        ["start".toList, "    i32.const 7".toList, "    nop".toList] ∧
      (s.step .generate).2 = some (.word .empty) := by
  intro a b s
  obtain ⟨_, _, _, _, _, parts⟩ := generating_stops_at_first_word_of_no_kind s
  have noFailure : (({ s with words := a } : Session).step .generate).2 = none := by
    decide +kernel
  have whole := parts a b rfl
  dsimp only at whole
  rw [if_pos noFailure] at whole
  refine ⟨noFailure, ?_⟩
  rw [whole]
  decide +kernel

end Session

end TinyForth
