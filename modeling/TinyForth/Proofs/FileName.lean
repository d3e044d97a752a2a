import Mathlib.Data.List.TakeWhile
import TinyForth.FileName

/-!
# Names and their extensions

A name is its root followed by its extension, and the extension is empty or a dot followed
by neither dots nor slashes.  So names that differ in their extensions only have the same
parts up to the last one (`exists_parts_append`), and lead through the same directories.
-/

namespace TinyForth.FileName

/-! ## Parts -/

theorem parts_of_not_mem {t : Text} (h : '/' ∉ t) : parts t = [t] :=
  List.splitOn_eq_singleton h

theorem parts_append_slash (a b : Text) : parts (a ++ '/' :: b) = parts a ++ parts b :=
  List.splitOn_append_cons_self ..

/-- A text with a character in it is cut where the character stands last. -/
theorem exists_last {t : Text} {c : Char} (mem : c ∈ t) : ∃ a b, t = a ++ c :: b ∧ c ∉ b := by
  obtain ⟨b, a, reversed, notBefore⟩ := List.eq_append_cons_of_mem (List.mem_reverse.mpr mem)
  refine ⟨a.reverse, b.reverse, ?_, by simpa using notBefore⟩
  simpa using congrArg List.reverse reversed

/-- What is put behind a name, without a slash, is put behind its last part. -/
theorem exists_parts_append (t : Text) :
    ∃ front last, ∀ e, '/' ∉ e → parts (t ++ e) = front ++ [last ++ e] := by
  by_cases slash : '/' ∈ t
  · obtain ⟨a, b, rfl, noSlash⟩ := exists_last slash
    refine ⟨parts a, b, fun e he => ?_⟩
    have plain : '/' ∉ b ++ e := by simp [noSlash, he]
    rw [List.append_assoc, List.cons_append, parts_append_slash, parts_of_not_mem plain]
  · exact ⟨[], t, fun e he => parts_of_not_mem (by simp [slash, he])⟩

theorem bne_slash {t : Text} (noSlash : '/' ∉ t) : ∀ c ∈ t.reverse, (c != '/') = true := by
  intro c mem
  exact bne_iff_ne.mpr fun same => noSlash (same ▸ List.mem_reverse.mp mem)

/-- The last part of a name is what stands behind its last slash. -/
theorem getLast?_parts (t : Text) :
    (parts t).getLast? = some (t.reverse.takeWhile (· != '/')).reverse := by
  by_cases slash : '/' ∈ t
  · obtain ⟨a, b, rfl, noSlash⟩ := exists_last slash
    have behind : (a ++ '/' :: b).reverse = b.reverse ++ '/' :: a.reverse := by simp
    rw [parts_append_slash, parts_of_not_mem noSlash, List.getLast?_append,
      List.getLast?_singleton, behind, List.takeWhile_append_of_pos (bne_slash noSlash)]
    simp
  · rw [parts_of_not_mem slash, List.takeWhile_eq_self_iff.mpr (bne_slash slash)]
    simp

/-! ## Extensions -/

/-- The extension of a name with its dot, or nothing. -/
def extension (name : Text) : Text := (splitExtension name).2

/-- A name has no extension, or its extension starts at its last dot, which stands behind its
last slash. -/
theorem splitExtension_cases (name : Text) :
    splitExtension name = (name, []) ∨
      ∃ before tail, name = before ++ '.' :: tail ∧ (∀ c ∈ tail, c ≠ '.' ∧ c ≠ '/') ∧
        splitExtension name = (before, '.' :: tail) := by
  have whole := List.takeWhile_append_dropWhile (p := fun c : Char => c != '.' && c != '/')
    (l := name.reverse)
  unfold splitExtension
  dsimp only
  split
  next before rest =>
    split
    next =>
      refine .inr ⟨before.reverse, _, ?_, ?_, rfl⟩
      · rw [rest] at whole
        simpa using (congrArg List.reverse whole).symm
      · intro c mem
        simpa using List.mem_takeWhile_imp (List.mem_reverse.mp mem)
    next => exact .inl rfl
  next => exact .inl rfl

/-- A dot and what stands behind it, without dots and slashes, are the extension of a name, unless
the last part has only dots before them. -/
theorem splitExtension_append (t : Text) {e : Text} (plain : ∀ c ∈ e, c ≠ '.' ∧ c ≠ '/') :
    splitExtension (t ++ '.' :: e) =
      if (t.reverse.takeWhile (· != '/')).any (· != '.') then (t, '.' :: e)
      else (t ++ '.' :: e, []) := by
  have behind : (t ++ '.' :: e).reverse = e.reverse ++ '.' :: t.reverse := by simp
  have passed : ∀ c ∈ e.reverse, (c != '.' && c != '/') = true := by
    intro c mem
    simpa using plain c (List.mem_reverse.mp mem)
  unfold splitExtension
  dsimp only
  rw [behind, List.dropWhile_append_of_pos passed, List.takeWhile_append_of_pos passed]
  simp

/-- A name whose last part is not made of dots only is the root of what an extension makes
of it. -/
theorem root_append {name last e : Text} (found : (parts name).getLast? = some last)
    (proper : ∃ c ∈ last, c ≠ '.') (plain : ∀ c ∈ e, c ≠ '.' ∧ c ≠ '/') :
    root (name ++ '.' :: e) = name := by
  have some : (name.reverse.takeWhile (· != '/')).any (· != '.') = true := by
    rw [getLast?_parts] at found
    obtain ⟨c, mem, other⟩ := proper
    rw [← Option.some.inj found] at mem
    exact List.any_eq_true.mpr ⟨c, List.mem_reverse.mp mem, bne_iff_ne.mpr other⟩
  rw [root, splitExtension_append name plain, if_pos some]

theorem root_append_extension (name : Text) : root name ++ extension name = name := by
  unfold root extension
  rcases splitExtension_cases name with h | ⟨before, tail, split, _, h⟩
  · rw [h, List.append_nil]
  · rw [h, split]

theorem slash_not_mem_extension (name : Text) : '/' ∉ extension name := by
  unfold extension
  rcases splitExtension_cases name with h | ⟨before, tail, _, plain, h⟩
  · rw [h]
    exact List.not_mem_nil
  · rw [h]
    intro mem
    rcases List.mem_cons.mp mem with dot | mem
    · cases dot
    · exact (plain _ mem).2 rfl

end TinyForth.FileName
