import TinyForth.Proofs.Comments

/-!
# The grammar of comments

Words can be read in one way as words outside comments, whole comments, and perhaps a comment at
the end that is never closed.  A `Reading` is such a way.  Its parts carry what makes the reading
unique: no words outside comments hold the mark that opens one, and no comment holds the mark that
closes it.  So the first opening in the words begins the first comment, the first closing after it
ends that comment, and what follows is read in the same manner.

Stripping gives the words of the reading that stand outside comments (`strip_words`).
-/

namespace TinyForth.Comment

/-- Words that open no comment. -/
abbrev Outside := { ws : List Text // opening ∉ ws }

/-- Words that close no comment. -/
abbrev Inside := { ws : List Text // closing ∉ ws }

/-- A way to read words as comments and what stands between them. -/
inductive Reading where
  /-- Words without a comment. -/
  | plain (s : Outside)
  /-- Words, and then a comment that reaches to the end. -/
  | unclosed (s : Outside) (c : Inside)
  /-- Words, a whole comment, and what is read after it. -/
  | comment (s : Outside) (c : Inside) (rest : Reading)

namespace Reading

/-- The words that are read. -/
def words : Reading → List Text
  | plain s => s
  | unclosed s c => s ++ [opening] ++ c
  | comment s c rest => s ++ [opening] ++ (c ++ [closing] ++ rest.words)

/-- The words outside comments. -/
def kept : Reading → List Text
  | plain s => s
  | unclosed s _ => s
  | comment s _ rest => s ++ rest.kept

/-! ## One reading -/

theorem exists_reading (ws : List Text) : ∃ r : Reading, r.words = ws := by
  by_cases opened : opening ∈ ws
  · obtain ⟨s, later, split, outside⟩ := List.eq_append_cons_of_mem opened
    by_cases closed : closing ∈ later
    · obtain ⟨c, rest, split', inside⟩ := List.eq_append_cons_of_mem closed
      obtain ⟨r, read⟩ := exists_reading rest
      refine ⟨comment ⟨s, outside⟩ ⟨c, inside⟩ r, ?_⟩
      simp [words, read, split, split']
    · refine ⟨unclosed ⟨s, outside⟩ ⟨later, closed⟩, ?_⟩
      simp [words, split]
  · exact ⟨plain ⟨ws, opened⟩, rfl⟩
termination_by ws.length
decreasing_by
  subst split split'
  simp only [List.length_append, List.length_cons]
  omega

theorem mark_mem {mark : Text} {ws s t : List Text} (h : ws = s ++ [mark] ++ t) : mark ∈ ws := by
  rw [h]
  simp

/-- Lists are cut in one way at the first place of a mark. -/
theorem cut_unique {mark : Text} {s s' t t' : List Text} (h : mark ∉ s) (h' : mark ∉ s')
    (same : s ++ [mark] ++ t = s' ++ [mark] ++ t') : s = s' ∧ t = t' := by
  induction s generalizing s' with
  | nil =>
      cases s' with
      | nil => exact ⟨rfl, (List.cons.inj same).2⟩
      | cons w s' => exact absurd (List.cons.inj same).1 (List.ne_of_not_mem_cons h')
  | cons w s ih =>
      cases s' with
      | nil => exact absurd (List.cons.inj same).1.symm (List.ne_of_not_mem_cons h)
      | cons w' s' =>
          obtain ⟨rfl, later⟩ := List.cons.inj same
          obtain ⟨rfl, rfl⟩ := ih (List.not_mem_of_not_mem_cons h)
            (List.not_mem_of_not_mem_cons h') later
          exact ⟨rfl, rfl⟩

/-- The marks that the two readings begin their first comments with are the same one, and so are the
marks that end these. -/
theorem words_injective {r r' : Reading} (same : r.words = r'.words) : r = r' := by
  induction r generalizing r' with
  | plain s =>
      cases r' with
      | plain s' => rw [Subtype.ext same]
      | unclosed s' c' => exact absurd (mark_mem same) s.property
      | comment s' c' rest' => exact absurd (mark_mem same) s.property
  | unclosed s c =>
      cases r' with
      | plain s' => exact absurd (mark_mem same.symm) s'.property
      | unclosed s' c' =>
          obtain ⟨outside, inside⟩ := cut_unique s.property s'.property same
          rw [Subtype.ext outside, Subtype.ext inside]
      | comment s' c' rest' =>
          obtain ⟨_, inside⟩ := cut_unique s.property s'.property same
          exact absurd (mark_mem inside) c.property
  | comment s c rest ih =>
      cases r' with
      | plain s' => exact absurd (mark_mem same.symm) s'.property
      | unclosed s' c' =>
          obtain ⟨_, inside⟩ := cut_unique s.property s'.property same
          exact absurd (mark_mem inside.symm) c'.property
      | comment s' c' rest' =>
          obtain ⟨outside, later⟩ := cut_unique s.property s'.property same
          obtain ⟨inside, after⟩ := cut_unique c.property c'.property later
          rw [Subtype.ext outside, Subtype.ext inside, ih after]

/-! ## Stripping what is read -/

theorem opening_not_mem_kept (r : Reading) : opening ∉ r.kept := by
  induction r with
  | plain s => exact s.property
  | unclosed s _ => exact s.property
  | comment s _ rest ih =>
      rw [kept, List.mem_append, not_or]
      exact ⟨s.property, ih⟩

theorem strip_outside_append (s : Outside) (ws : List Text) :
    strip (s ++ ws) = s ++ strip ws := by
  rw [strip_append (not_endsInside_of_not_mem s.property), strip_of_not_mem s.property]

/-- Stripping leaves the words outside comments. -/
theorem strip_words (r : Reading) : strip r.words = r.kept := by
  induction r with
  | plain s => exact strip_of_not_mem s.property
  | unclosed s c =>
      rw [words, List.append_assoc, strip_outside_append, List.singleton_append,
        strip_opened c.property, List.append_nil, kept]
  | comment s c rest ih =>
      rw [words, List.append_assoc, strip_outside_append, List.singleton_append,
        List.append_assoc, List.singleton_append, strip_comment c.property, ih, kept]

end Reading

/-- Words have one reading, and stripping leaves those of them that it has outside comments.  So no
opening is left and every closing outside comments is, at its place, and stripping once more changes
nothing. -/
theorem strip_reads_the_comment_grammar (ws : List Text) :
    (∃! r : Reading, r.words = ws) ∧
    (∀ r : Reading, r.words = ws → strip ws = r.kept) ∧
    opening ∉ strip ws ∧
    (∀ a b, ws = a ++ closing :: b → ¬ EndsInside a →
      strip ws = strip a ++ closing :: strip b) ∧
    strip (strip ws) = strip ws := by
  obtain ⟨r, rfl⟩ := Reading.exists_reading ws
  have noOpening : opening ∉ strip r.words := by
    rw [Reading.strip_words]
    exact r.opening_not_mem_kept
  refine ⟨⟨r, rfl, fun _ => Reading.words_injective⟩, ?_, noOpening, ?_, strip_of_not_mem noOpening⟩
  · intro r' same
    rw [← same, Reading.strip_words]
  · intro a b split outside
    have stray : strip (closing :: b) = closing :: strip b := by
      rw [strip, stripFrom, if_neg (by decide), strip]
    rw [split, strip_append outside, stray]

/-- A comment with an opening in it, a closing behind it that ends no comment, and a comment that is
not closed. -/
theorem strip_of_stray_marks :
    let ws := ["1", "(", "a", "(", "b", ")", "2", ")", "(", "3"].map String.toList
    let r : Reading := .comment ⟨["1".toList], by decide⟩
      ⟨["a".toList, "(".toList, "b".toList], by decide⟩
      (.unclosed ⟨["2".toList, ")".toList], by decide⟩ ⟨["3".toList], by decide⟩)
    r.words = ws ∧ strip ws = ["1".toList, "2".toList, ")".toList] := by
  intro ws r
  have read : r.words = ws := rfl
  obtain ⟨_, stripped, _⟩ := strip_reads_the_comment_grammar ws
  exact ⟨read, stripped r read⟩

end TinyForth.Comment
