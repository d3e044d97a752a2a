import TinyForth.Command.Compile
import TinyForth.Proofs.FileName

/-!
# Where the outputs go

A name is cut at its last slash into the directory and the last part, and the last part may be cut
once more, at its last dot, into a stem and the extension.  Both cuts are found from behind.  The
second must not pass the first, and it must not be made where only dots come before it.

What is put behind a name without a slash in it changes the last part alone (`directory_append`,
`lastPart_append`).  So the outputs of the compile command stand in the directory of its source.
Whether they split again at the extension they were given is a matter of the root's last part.
-/

namespace TinyForth

namespace FileName

/-! ## The directory and the last part -/

/-- The part of a name behind its last slash. -/
def lastPart (name : Text) : Text := (parts name).getLastD []

/-- A name up to its last slash, the slash included. -/
def directory (name : Text) : Text := (name.reverse.dropWhile (· != '/')).reverse

theorem lastPart_eq (name : Text) :
    lastPart name = (name.reverse.takeWhile (· != '/')).reverse := by
  rw [lastPart, List.getLastD_eq_getLast?, getLast?_parts, Option.getD_some]

theorem directory_append_lastPart (name : Text) : directory name ++ lastPart name = name := by
  rw [lastPart_eq, directory, ← List.reverse_append, List.takeWhile_append_dropWhile,
    List.reverse_reverse]

theorem slash_not_mem_lastPart (name : Text) : '/' ∉ lastPart name := by
  rw [lastPart_eq, List.mem_reverse]
  intro slash
  exact absurd (List.mem_takeWhile_imp slash) (by decide)

theorem directory_append (t : Text) {e : Text} (plain : '/' ∉ e) :
    directory (t ++ e) = directory t := by
  rw [directory, List.reverse_append, List.dropWhile_append_of_pos (bne_slash plain), directory]

theorem lastPart_append (t : Text) {e : Text} (plain : '/' ∉ e) :
    lastPart (t ++ e) = lastPart t ++ e := by
  rw [lastPart_eq, lastPart_eq, List.reverse_append, List.takeWhile_append_of_pos (bne_slash plain),
    List.reverse_append, List.reverse_reverse]

theorem lastPart_directory_append (name : Text) {e : Text} (plain : '/' ∉ e) :
    lastPart (directory name ++ e) = e := by
  have none : lastPart (directory name) = [] := by
    have whole := lastPart_append (directory name) (slash_not_mem_lastPart name)
    rw [directory_append_lastPart] at whole
    exact List.append_left_eq_self.mp whole.symm
  rw [lastPart_append _ plain, none, List.nil_append]

/-! ## The extension -/

theorem any_lastPart {t : Text} :
    (t.reverse.takeWhile (· != '/')).any (· != '.') = true ↔ ∃ c ∈ lastPart t, c ≠ '.' := by
  simp [lastPart_eq]

/-- An extension put behind a name is taken off again exactly if the last part of the name is not
made of dots only. -/
theorem splitExtension_append_iff (t : Text) {e : Text} (plain : ∀ c ∈ e, c ≠ '.' ∧ c ≠ '/') :
    splitExtension (t ++ '.' :: e) = (t, '.' :: e) ↔ ∃ c ∈ lastPart t, c ≠ '.' := by
  rw [splitExtension_append t plain, ← any_lastPart]
  split
  next some => exact iff_of_true rfl some
  next none => exact iff_of_false (by simp) none

theorem extension_eq_nil_or (name : Text) :
    extension name = [] ∨
      ∃ tail, extension name = '.' :: tail ∧ ∀ c ∈ tail, c ≠ '.' ∧ c ≠ '/' := by
  rw [extension]
  rcases splitExtension_cases name with h | ⟨_, tail, _, plain, h⟩
  · exact .inl (by rw [h])
  · exact .inr ⟨tail, by rw [h], plain⟩

theorem directory_root (name : Text) : directory (root name) = directory name := by
  rw [← directory_append _ (slash_not_mem_extension name), root_append_extension]

theorem lastPart_root_append (name : Text) :
    lastPart (root name) ++ extension name = lastPart name := by
  rw [← lastPart_append _ (slash_not_mem_extension name), root_append_extension]

/-- A name has an extension exactly if its last part has a dot with something other than dots
before it. -/
theorem extension_ne_nil_iff (name : Text) :
    extension name ≠ [] ↔ ∃ a b, lastPart name = a ++ '.' :: b ∧ ∃ c ∈ a, c ≠ '.' := by
  constructor
  · intro some
    rcases extension_eq_nil_or name with none | ⟨tail, found, plain⟩
    · exact absurd none some
    · have split : splitExtension (root name ++ '.' :: tail) = (root name, '.' :: tail) := by
        rw [← found, root_append_extension]
        rfl
      have proper := (splitExtension_append_iff _ plain).mp split
      exact ⟨lastPart (root name), tail, by rw [← found, lastPart_root_append], proper⟩
  · rintro ⟨a, b, dotted, c, mem, other⟩
    -- The extension starts at the last dot, which may be one behind the given dot.
    obtain ⟨more, tail, last, noDot⟩ := exists_last (List.mem_cons_self (a := '.') (l := b))
    have cut : lastPart name = (a ++ more) ++ '.' :: tail := by
      rw [dotted, last, List.append_assoc]
    have noSlash := slash_not_mem_lastPart name
    rw [cut, List.mem_append, not_or] at noSlash
    have plain : ∀ c ∈ tail, c ≠ '.' ∧ c ≠ '/' := by
      intro c inTail
      exact ⟨fun dot => noDot (dot ▸ inTail),
        fun slash => noSlash.2 (slash ▸ List.mem_cons_of_mem _ inTail)⟩
    have inStem : c ∈ lastPart (directory name ++ (a ++ more)) := by
      rw [lastPart_directory_append name noSlash.1]
      exact List.mem_append_left more mem
    have split := (splitExtension_append_iff _ plain).mpr ⟨c, inStem, other⟩
    rw [List.append_assoc, ← cut, directory_append_lastPart] at split
    rw [extension, split]
    simp

end FileName

namespace Command

open FileName

/-- The compile command leaves the tree as it is, or writes its outputs under the root. -/
theorem compile_outputs (tree : FileTree) (command name : Text) :
    (compile tree [command, name]).tree = tree ∨
      ∃ module, compile tree [command, name] = writeOutputs tree (root name) module := by
  have stages : compileSource tree [command, name] =
      (readSource tree [command, name] name).bind fun ws =>
        ((moduleOfWords ws).mapError .failed).map fun module => (root name, module) := rfl
  rw [compile, stages]
  cases readSource tree [command, name] name with
  | error ending => exact .inl rfl
  | ok ws =>
      rw [Except.bind]
      cases moduleOfWords ws with
      | error failure => exact .inl rfl
      | ok module => exact .inr ⟨module, rfl⟩

/-- Where the outputs go.  A source name is its root and its extension.  The extension is empty, or
a dot with neither dots nor slashes behind it, and it belongs to the last part of the name.  There
is one exactly if the last part has a dot with something other than dots before it.  The outputs are
written, if at all, under the root with one of two extensions put behind it, and this is a name in
the directory of the source.  It splits again into the root and that extension exactly if the last
part of the root is not made of dots only. -/
theorem outputs_stand_beside_source (name : Text) :
    let r := (splitExtension name).1
    let ext := (splitExtension name).2
    r ++ ext = name ∧
    (ext = [] ∨ ∃ tail, ext = '.' :: tail ∧ ∀ c ∈ tail, c ≠ '.' ∧ c ≠ '/') ∧
    lastPart r ++ ext = lastPart name ∧
    (ext ≠ [] ↔ ∃ a b, lastPart name = a ++ '.' :: b ∧ ∃ c ∈ a, c ≠ '.') ∧
    (∀ tree command, (compile tree [command, name]).tree = tree ∨
      ∃ module, compile tree [command, name] = writeOutputs tree r module) ∧
    ∀ e ∈ [watExtension, wasmExtension],
      directory (r ++ e) = directory name ∧
      (splitExtension (r ++ e) = (r, e) ↔ ∃ c ∈ lastPart r, c ≠ '.') := by
  intro r ext
  refine ⟨root_append_extension name, extension_eq_nil_or name, lastPart_root_append name,
    extension_ne_nil_iff name, fun tree command => compile_outputs tree command name, ?_⟩
  have output {e : Text} (plain : ∀ c ∈ e, c ≠ '.' ∧ c ≠ '/') :
      directory (r ++ '.' :: e) = directory name ∧
        (splitExtension (r ++ '.' :: e) = (r, '.' :: e) ↔ ∃ c ∈ lastPart r, c ≠ '.') := by
    have noSlash : '/' ∉ '.' :: e := by
      rintro (_ | ⟨_, slash⟩)
      exact (plain '/' slash).2 rfl
    exact ⟨(directory_append r noSlash).trans (directory_root name),
      splitExtension_append_iff r plain⟩
  have text : ∀ c ∈ "wat".toList, c ≠ '.' ∧ c ≠ '/' := by simp
  have binary : ∀ c ∈ "wasm".toList, c ≠ '.' ∧ c ≠ '/' := by simp
  exact List.forall_mem_cons.mpr ⟨output text, List.forall_mem_singleton.mpr (output binary)⟩

/-- A hidden file with an extension, whose outputs split again, and a name of dots only, whose
outputs do not.  The dot in the name of the directory counts for neither. -/
theorem outputs_of_dotted_names :
    let e := watExtension
    let hidden := "d.e/.rc.4th".toList
    let dots := "d.e/...".toList
    e ∈ [watExtension, wasmExtension] ∧
      splitExtension hidden = ("d.e/.rc".toList, ".4th".toList) ∧
      directory ("d.e/.rc".toList ++ e) = directory hidden ∧
      splitExtension ("d.e/.rc".toList ++ e) = ("d.e/.rc".toList, e) ∧
      splitExtension dots = (dots, []) ∧ directory (dots ++ e) = directory dots ∧
      splitExtension (dots ++ e) ≠ (dots, e) := by
  intro e hidden dots
  have mem : e ∈ [watExtension, wasmExtension] := List.mem_cons_self ..
  obtain ⟨_, _, _, _, _, ofHidden⟩ := outputs_stand_beside_source hidden
  obtain ⟨_, _, _, _, _, ofDots⟩ := outputs_stand_beside_source dots
  have onlyDots : ¬ ∃ c ∈ lastPart dots, c ≠ '.' := by
    have last : lastPart dots = ['.', '.', '.'] := by decide
    simp [last]
  exact ⟨mem, by decide, (ofHidden e mem).1,
    (ofHidden e mem).2.mpr ⟨'r', by decide, by decide⟩, by decide, (ofDots e mem).1,
    fun again => onlyDots ((ofDots e mem).2.mp again)⟩

end Command

end TinyForth
