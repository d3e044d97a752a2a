import TinyForth.Compiler
import TinyForth.Proofs.Lines
import TinyForth.Proofs.ModuleText

/-!
# Taking a text apart into words

A blank stands between words whatever else stands there, so a text can be cut at any of its
blanks and its words are those of the two parts (`words_append_cons`).  All else about words
rests on this.  Unifying the line ends of a text turns blanks into blanks and may drop one that
stands behind another, which no word notices (`words_unifyLineEnds`).  And texts joined by
newlines have the words of each text in turn, also where a text ends in a carriage return that
the newline behind it completes to one line end (`sourceWords_ofLines`).
-/

namespace TinyForth

namespace Text

/-! ## Blanks between words -/

theorem words_nil : words [] = [] := rfl

theorem words_append_cons {b : Char} (blank : isBlank b = true) (s t : Text) :
    words (s ++ b :: t) = words s ++ words t := by
  rw [words, List.splitOnP_append_cons _ _ blank, List.filter_append, words, words]

theorem words_cons {b : Char} (blank : isBlank b = true) (t : Text) : words (b :: t) = words t := by
  have cut := words_append_cons blank [] t
  rwa [List.nil_append, words_nil, List.nil_append] at cut

/-- A text without blanks is one word. -/
theorem words_of_solid {w : Text} (nonempty : w ≠ []) (solid : ∀ c ∈ w, isBlank c = false) :
    words w = [w] := by
  have alone : w.splitOnP isBlank = [w] := List.splitOnP_eq_singleton (by simpa using solid)
  rw [words, alone, List.filter_cons_of_pos (by simpa using nonempty), List.filter_nil]

theorem words_append_blank {w : Text} (nonempty : w ≠ []) (solid : ∀ c ∈ w, isBlank c = false)
    {b : Char} (blank : isBlank b = true) (t : Text) : words (w ++ b :: t) = w :: words t := by
  rw [words_append_cons blank, words_of_solid nonempty solid, List.singleton_append]

/-- Words with a blank between neighbours are read as these words. -/
theorem words_intercalate {b : Char} (blank : isBlank b = true) {ws : List Text}
    (h : ∀ w ∈ ws, w ≠ [] ∧ ∀ c ∈ w, isBlank c = false) : words (List.intercalate [b] ws) = ws := by
  induction ws with
  | nil => rfl
  | cons w ws ih =>
      obtain ⟨⟨nonempty, solid⟩, later⟩ := List.forall_mem_cons.mp h
      cases ws with
      | nil => rw [List.intercalate_singleton, words_of_solid nonempty solid]
      | cons w' ws =>
          rw [List.intercalate_cons_cons, List.append_assoc, List.singleton_append,
            words_append_blank nonempty solid blank, ih later]

/-! ## Line ends -/

/-- The text before the part that is unified is carried along, since a word may reach across. -/
theorem words_append_unifyLineEnds (s t : Text) :
    words (s ++ unifyLineEnds t) = words (s ++ t) := by
  have feed : isBlank '\n' = true := by decide
  have carriage : isBlank '\r' = true := by decide
  fun_induction unifyLineEnds t generalizing s with
  | case1 => rfl
  | case2 rest ih =>
      have rest' : words (unifyLineEnds rest) = words rest := ih []
      rw [words_append_cons feed, words_append_cons carriage, words_cons feed, rest']
  | case3 c rest _ ih =>
      by_cases lone : c = '\r'
      · have rest' : words (unifyLineEnds rest) = words rest := ih []
        rw [if_pos lone, lone, words_append_cons feed, words_append_cons carriage, rest']
      · rw [if_neg lone, List.append_cons, ih, ← List.append_cons]

theorem words_unifyLineEnds (t : Text) : words (unifyLineEnds t) = words t :=
  words_append_unifyLineEnds [] t

theorem words_ofLines (ls : List Text) : words (ofLines ls) = ls.flatMap words := by
  induction ls with
  | nil => rfl
  | cons l ls ih =>
      cases ls with
      | nil => rw [ofLines, List.intercalate_singleton, List.flatMap_singleton]
      | cons l' ls =>
          rw [ofLines_cons l (by simp), words_append_cons (by decide), ih]
          rfl

end Text

namespace Compiler

theorem sourceWords_eq (source : Text) : sourceWords source = source.words :=
  Text.words_unifyLineEnds source

/-- Sources joined by newlines are read as if they were read one after the other. -/
theorem sourceWords_ofLines (sources : List Text) :
    sourceWords (Text.ofLines sources) = sources.flatMap sourceWords := by
  have each : sources.flatMap sourceWords = sources.flatMap Text.words :=
    congrArg (List.flatMap · sources) (funext sourceWords_eq)
  rw [sourceWords_eq, Text.words_ofLines, each]

end Compiler

end TinyForth
