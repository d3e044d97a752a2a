import TinyForth.Proofs.Comments

/-!
# Spacing

A source is its words with blanks between them.  A `Layout` is a choice of the blanks: a gap
before the first word and behind the last, which may be empty, and a gap behind every other word,
which may not.  Every text is the text of a layout (`exists_layout`), and reading it gives the
words of the layout (`words_text`), however the gaps are chosen.  So what a run makes of a source
depends on the words of a layout and not on the layout.

The line ends of a source are unified before its words are taken.  A line end is a gap or part of
one, so this changes no word.
-/

namespace TinyForth

namespace Text

/-- A word as it stands in a source. -/
abbrev Solid := { w : Word // w ≠ [] ∧ ∀ c ∈ w, isBlank c = false }

/-- A run of blanks, perhaps empty. -/
abbrev Gap := { t : Text // ∀ c ∈ t, isBlank c = true }

/-- A run of blanks that keeps two words apart. -/
abbrev WideGap := { t : Text // t ≠ [] ∧ ∀ c ∈ t, isBlank c = true }

/-- Words and the blanks around them. -/
inductive Layout where
  /-- No words. -/
  | blank (gap : Gap)
  /-- A gap, words with a gap behind each, and the last word with what follows it. -/
  | spaced (lead : Gap) (front : List (Solid × WideGap)) (last : Solid) (trail : Gap)

namespace Layout

/-- The text that is laid out. -/
def text : Layout → Text
  | blank gap => gap
  | spaced lead front last trail =>
      lead ++ front.flatMap (fun p => p.1.val ++ p.2.val) ++ last ++ trail

/-- The words without the blanks. -/
def words : Layout → List Word
  | blank _ => []
  | spaced _ front last _ => front.map (fun p => p.1.val) ++ [last.val]

/-! ## Reading a layout -/

theorem words_gap_append (gap : Gap) (t : Text) : Text.words (gap ++ t) = Text.words t := by
  obtain ⟨gap, blank⟩ := gap
  dsimp only
  induction gap with
  | nil => rfl
  | cons b gap ih =>
      obtain ⟨first, later⟩ := List.forall_mem_cons.mp blank
      rw [List.cons_append, words_cons first, ih later]

theorem words_gap (gap : Gap) : Text.words gap = [] := by
  have alone := words_gap_append gap []
  rwa [List.append_nil, words_nil] at alone

theorem words_solid_append_blank (w : Solid) {b : Char} (blank : isBlank b = true) (t : Text) :
    Text.words (w ++ b :: t) = w.val :: Text.words t :=
  words_append_blank w.property.1 w.property.2 blank t

/-- The last word is read also where nothing comes after it. -/
theorem words_last (last : Solid) (trail : Gap) : Text.words (last ++ trail) = [last.val] := by
  obtain ⟨trail, blank⟩ := trail
  cases trail with
  | nil =>
      rw [List.append_nil]
      exact words_of_solid last.property.1 last.property.2
  | cons b trail =>
      obtain ⟨first, later⟩ := List.forall_mem_cons.mp blank
      have rest : Text.words trail = [] := words_gap ⟨trail, later⟩
      rw [words_solid_append_blank last first, rest]

theorem words_apart (w : Solid) (gap : WideGap) (t : Text) :
    Text.words (w.val ++ gap.val ++ t) = w.val :: Text.words t := by
  obtain ⟨gap, wide, blank⟩ := gap
  cases gap with
  | nil => exact absurd rfl wide
  | cons b gap =>
      obtain ⟨first, later⟩ := List.forall_mem_cons.mp blank
      have rest : Text.words (gap ++ t) = Text.words t := words_gap_append ⟨gap, later⟩ t
      rw [List.append_assoc, List.cons_append, words_solid_append_blank w first, rest]

theorem words_text (l : Layout) : l.text.words = l.words := by
  cases l with
  | blank gap => exact words_gap gap
  | spaced lead front last trail =>
      rw [text, List.append_assoc, List.append_assoc, words_gap_append, words]
      induction front with
      | nil => exact words_last last trail
      | cons p front ih =>
          rw [List.flatMap_cons, List.append_assoc, words_apart, ih, List.map_cons,
            List.cons_append]

/-! ## Every text is laid out -/

/-- No blanks. -/
def noGap : Gap := ⟨[], by simp⟩

/-- The word with a character in front. -/
def startWith (c : Char) (hc : isBlank c = false) (w : Text) (hw : ∀ d ∈ w, isBlank d = false) :
    Solid :=
  ⟨c :: w, List.cons_ne_nil c w, List.forall_mem_cons.mpr ⟨hc, hw⟩⟩

/-- One more character in front is a blank of the first gap, a letter of the first word, or a word
of its own before a gap. -/
theorem exists_cons (c : Char) (l : Layout) : ∃ l' : Layout, l'.text = c :: l.text := by
  cases hc : isBlank c with
  | true =>
      have longer (gap : Gap) : ∀ d ∈ c :: gap.val, isBlank d = true :=
        List.forall_mem_cons.mpr ⟨hc, gap.property⟩
      cases l with
      | blank gap => exact ⟨blank ⟨c :: gap, longer gap⟩, rfl⟩
      | spaced lead front last trail =>
          exact ⟨spaced ⟨c :: lead, longer lead⟩ front last trail, rfl⟩
  | false =>
      have alone : ∀ d ∈ ([] : Text), isBlank d = false := by simp
      cases l with
      | blank gap => exact ⟨spaced noGap [] (startWith c hc [] alone) gap, rfl⟩
      | spaced lead front last trail =>
          by_cases wide : lead.val ≠ []
          · let word := startWith c hc [] alone
            refine ⟨spaced noGap ((word, ⟨lead, wide, lead.property⟩) :: front) last trail, ?_⟩
            simp [text, noGap, word, startWith]
          · have empty := not_not.mp wide
            cases front with
            | nil =>
                refine ⟨spaced noGap [] (startWith c hc last last.property.2) trail, ?_⟩
                simp [text, noGap, startWith, empty]
            | cons p front =>
                let word := startWith c hc p.1 p.1.property.2
                refine ⟨spaced noGap ((word, p.2) :: front) last trail, ?_⟩
                simp [text, noGap, word, startWith, empty]

theorem exists_layout (t : Text) : ∃ l : Layout, l.text = t := by
  induction t with
  | nil => exact ⟨blank noGap, rfl⟩
  | cons c t ih =>
      obtain ⟨l, rfl⟩ := ih
      exact exists_cons c l

end Layout

end Text

namespace Command

open Text (Layout)

/-- Reading a file gives the words of the text in it, whatever blanks are between them, and every
text is words with blanks between them.  No word that is read is empty or has a blank in it.  So
unifying the line ends changes no word, and sources that differ in nothing but their layout have the
same outcome. -/
theorem reading_undoes_layout :
    (∀ (l : Layout) (tree : FileTree) (args : List Text) (name shown : Text),
      args[1]? = some name → tree.read name = .ok (Utf8.encode l.text) →
        readSource tree args shown = .ok l.words) ∧
    (∀ source : Text, ∃ l : Layout, l.text = source) ∧
    (∀ (tree : FileTree) (args : List Text) (shown : Text) (ws : List Word),
      readSource tree args shown = .ok ws →
        ∀ w ∈ ws, w ≠ [] ∧ ∀ c ∈ w, Text.isBlank c = false) ∧
    (∀ source : Text, source.unifyLineEnds.words = source.words) ∧
    (∀ l l' : Layout, l.words = l'.words → SameOutcome l.text l'.text) := by
  refine ⟨?_, Layout.exists_layout, ?_, Text.words_unifyLineEnds, ?_⟩
  · intro l tree args name shown named readable
    rw [readSource_of_decode named readable (Utf8.decode_encode l.text), Compiler.sourceWords_eq,
      l.words_text]
  · intro tree args shown ws h w mem
    obtain ⟨source, rfl⟩ := exists_source h
    exact ⟨Text.ne_nil_of_mem_words mem, Text.isBlank_eq_false_of_mem_words mem⟩
  · intro l l' same
    refine sameOutcome_of_strip_eq ?_
    rw [Compiler.sourceWords_eq, Compiler.sourceWords_eq, l.words_text, l'.words_text, same]

/-- Two words between a tab, the two characters of one line end, three more blanks from above the
first 128 characters and no blank at the end.  The other layout has a space and nothing else. -/
theorem reading_of_odd_spacing :
    let odd : Layout := .spaced ⟨"\t".toList, Text.forall_mem_of_all (by decide)⟩
      [(⟨"7".toList, by decide, Text.forall_mem_of_all (by decide)⟩,
        ⟨"\r\n\u0085\u2028\u3000".toList, by decide, Text.forall_mem_of_all (by decide)⟩)]
      ⟨".".toList, by decide, Text.forall_mem_of_all (by decide)⟩ Layout.noGap
    let even : Layout := .spaced Layout.noGap
      [(⟨"7".toList, by decide, Text.forall_mem_of_all (by decide)⟩,
        ⟨" ".toList, by decide, Text.forall_mem_of_all (by decide)⟩)]
      ⟨".".toList, by decide, Text.forall_mem_of_all (by decide)⟩ Layout.noGap
    let tree := FileTree.ofList [("p.4th".toList, .file (Utf8.encode odd.text))]
    odd.text = "\t7\r\n\u0085\u2028\u3000.".toList ∧ even.text = "7 .".toList ∧
      readSource tree ["forth".toList, "p.4th".toList] [] = .ok ["7".toList, ".".toList] ∧
      SameOutcome odd.text even.text := by
  intro odd even tree
  obtain ⟨reads, _, _, _, same⟩ := reading_undoes_layout
  have readable : tree.read "p.4th".toList = .ok (Utf8.encode odd.text) := rfl
  exact ⟨rfl, rfl, reads odd tree _ _ [] rfl readable, same odd even rfl⟩

end Command

end TinyForth
