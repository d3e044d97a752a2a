import Mathlib.Data.List.TakeWhile
import TinyForth.Text.Line

/-!
# The lines of an input

`Lines` says what the lines of a text are.  A line ends in one of three ways, and only the last
line may do without an end.  Every text has its lines (`exists_lines`), and there is one way to
see them (`Lines.unique`).

The lines are taken off a text whose line ends have been unified.  What is left after that is
again such a text, and its lines are the ones that follow (`nextLine?_of_lines_cons`).
-/

namespace TinyForth.Text

/-! ## Lines and their ends -/

/-- The text has no line end in it. -/
def NoLineEnd (t : Text) : Prop := ∀ c ∈ t, c ≠ '\n' ∧ c ≠ '\r'

/-- A line end, and a text that it can stand before. -/
inductive EndsLine : Text → Text → Prop where
  /-- A line feed. -/
  | feed (rest : Text) : EndsLine ['\n'] rest
  /-- A carriage return and a line feed. -/
  | pair (rest : Text) : EndsLine ['\r', '\n'] rest
  /-- A carriage return that no line feed follows. -/
  | lone (rest : Text) : rest.head? ≠ some '\n' → EndsLine ['\r'] rest

/-- The lines of a text, without their ends. -/
inductive Lines : Text → List Text → Prop where
  /-- The empty text has none. -/
  | none : Lines [] []
  /-- The last line may come without an end. -/
  | last {line : Text} : line ≠ [] → NoLineEnd line → Lines line [line]
  /-- A line with its end comes before the lines of the rest. -/
  | ended {line stop rest : Text} {ls : List Text} : NoLineEnd line → EndsLine stop rest →
      Lines rest ls → Lines (line ++ (stop ++ rest)) (line :: ls)

theorem Lines.exists_cons {c : Char} (hc : c ≠ '\n' ∧ c ≠ '\r') {t : Text} {ls : List Text}
    (h : Lines t ls) : ∃ ls', Lines (c :: t) ls' := by
  cases h with
  | none => exact ⟨[[c]], .last (by simp) (List.forall_mem_cons.mpr ⟨hc, by simp⟩)⟩
  | last nonempty plain =>
      exact ⟨[c :: t], .last (by simp) (List.forall_mem_cons.mpr ⟨hc, plain⟩)⟩
  | @ended line stop rest later plain stops lines =>
      exact ⟨(c :: line) :: later, .ended (List.forall_mem_cons.mpr ⟨hc, plain⟩) stops lines⟩

theorem exists_lines (t : Text) : ∃ ls, Lines t ls := by
  have empty : NoLineEnd [] := by simp [NoLineEnd]
  fun_induction unifyLineEnds t with
  | case1 => exact ⟨[], .none⟩
  | case2 rest ih =>
      obtain ⟨ls, h⟩ := ih
      exact ⟨[] :: ls, .ended empty (.pair rest) h⟩
  | case3 c rest noPair ih =>
      obtain ⟨ls, h⟩ := ih
      by_cases feed : c = '\n'
      · rw [feed]
        exact ⟨[] :: ls, .ended empty (.feed rest) h⟩
      by_cases lone : c = '\r'
      · have next : rest.head? ≠ some '\n' := by
          intro head
          obtain ⟨tail, split⟩ := List.head?_eq_some_iff.mp head
          exact noPair tail lone split
        rw [lone]
        exact ⟨[] :: ls, .ended empty (.lone rest next) h⟩
      · exact h.exists_cons ⟨feed, lone⟩

/-! ## Unified line ends -/

theorem unifyLineEnds_cons {c : Char} (hc : c ≠ '\r') (t : Text) :
    unifyLineEnds (c :: t) = c :: unifyLineEnds t := by
  rw [unifyLineEnds, if_neg hc]
  rintro rest rfl
  exact absurd rfl hc

theorem unifyLineEnds_append {line : Text} (plain : NoLineEnd line) (t : Text) :
    unifyLineEnds (line ++ t) = line ++ unifyLineEnds t := by
  induction line with
  | nil => rfl
  | cons c line ih =>
      obtain ⟨hc, later⟩ := List.forall_mem_cons.mp plain
      rw [List.cons_append, unifyLineEnds_cons hc.2, ih later, List.cons_append]

theorem unifyLineEnds_of_endsLine {stop rest : Text} (h : EndsLine stop rest) :
    unifyLineEnds (stop ++ rest) = '\n' :: unifyLineEnds rest := by
  cases h with
  | feed => exact unifyLineEnds_cons (by decide) rest
  | pair => rw [List.cons_append, List.cons_append, unifyLineEnds, List.nil_append]
  | lone _ next =>
      rw [List.cons_append, List.nil_append, unifyLineEnds, if_pos rfl]
      rintro tail - rfl
      exact next rfl

theorem mem_of_mem_unifyLineEnds {t : Text} {c : Char} (h : c ∈ t.unifyLineEnds) :
    c = '\n' ∨ c ∈ t := by
  fun_induction unifyLineEnds t with
  | case1 => cases h
  | case2 rest ih =>
      rcases List.mem_cons.mp h with newline | later
      · exact .inl newline
      · exact (ih later).imp_right fun mem => List.mem_cons_of_mem _ (List.mem_cons_of_mem _ mem)
  | case3 d rest _ ih =>
      rcases List.mem_cons.mp h with here | later
      · split at here
        next => exact .inl here
        next => exact .inr (here ▸ List.mem_cons_self ..)
      · exact (ih later).imp_right (List.mem_cons_of_mem d)

/-! ## Taking lines off -/

theorem bne_newline {line : Text} (plain : NoLineEnd line) : ∀ c ∈ line, (c != '\n') = true :=
  fun c mem => bne_iff_ne.mpr (plain c mem).1

theorem nextLine?_append_newline {line : Text} (plain : NoLineEnd line) (rest : Text) :
    nextLine? (line ++ '\n' :: rest) = some (line, rest) := by
  rw [nextLine?, List.takeWhile_append_of_pos (bne_newline plain),
    List.dropWhile_append_of_pos (bne_newline plain)]
  · simp
  · simp

theorem nextLine?_of_noLineEnd {line : Text} (nonempty : line ≠ []) (plain : NoLineEnd line) :
    nextLine? line = some (line, []) := by
  rw [nextLine?, List.takeWhile_eq_self_iff.mpr (bne_newline plain),
    List.dropWhile_eq_nil_iff.mpr (bne_newline plain)]
  · rfl
  · exact nonempty

theorem nextLine?_of_lines_nil {t : Text} (h : Lines t []) :
    nextLine? (unifyLineEnds t) = none := by
  cases h
  rfl

/-- The first line is taken off, and the rest has the other lines. -/
theorem nextLine?_of_lines_cons {t line : Text} {later : List Text} (h : Lines t (line :: later)) :
    ∃ rest, nextLine? (unifyLineEnds t) = some (line, unifyLineEnds rest) ∧ Lines rest later := by
  cases h with
  | last nonempty plain =>
      refine ⟨[], ?_, .none⟩
      have unified := unifyLineEnds_append plain []
      rw [List.append_nil, unifyLineEnds, List.append_nil] at unified
      rw [unified, nextLine?_of_noLineEnd nonempty plain, unifyLineEnds]
  | @ended line stop rest _ plain stops lines =>
      refine ⟨rest, ?_, lines⟩
      rw [unifyLineEnds_append plain, unifyLineEnds_of_endsLine stops,
        nextLine?_append_newline plain]

/-- Texts that are the same with their line ends unified have the same lines. -/
theorem Lines.unique {t t' : Text} {ls ls' : List Text} (h : Lines t ls) (h' : Lines t' ls')
    (same : unifyLineEnds t = unifyLineEnds t') : ls = ls' := by
  induction ls generalizing t t' ls' with
  | nil =>
      cases ls' with
      | nil => rfl
      | cons line later =>
          obtain ⟨rest, next, _⟩ := nextLine?_of_lines_cons h'
          rw [← same, nextLine?_of_lines_nil h] at next
          cases next
  | cons line later ih =>
      obtain ⟨rest, next, lines⟩ := nextLine?_of_lines_cons h
      cases ls' with
      | nil =>
          rw [same, nextLine?_of_lines_nil h'] at next
          cases next
      | cons line' later' =>
          obtain ⟨rest', next', lines'⟩ := nextLine?_of_lines_cons h'
          rw [same, next'] at next
          obtain ⟨sameLine, sameRest⟩ := Prod.mk.inj (Option.some.inj next)
          rw [sameLine, ih lines lines' sameRest.symm]

end TinyForth.Text
