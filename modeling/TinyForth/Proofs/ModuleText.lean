import Mathlib.Data.List.Forall2
import Mathlib.Data.List.TakeWhile
import TinyForth.Proofs.Grammar
import TinyForth.Wat.Module

/-!
# The lines of a module

Splitting a module at its newlines gives back the lines it was joined from, as long as no
name and no numeral brings a newline along (`pieces_module`).  A declaration is told from an
instruction by how the line begins, so the declarations are the lines in front, and reading
the module gives back the names and the instructions (`read?_module`).
-/

namespace TinyForth

/-! ## Joining and splitting lines -/

namespace Text

theorem pieces_of_not_mem {t : Text} (h : '\n' ∉ t) : pieces t = [t] :=
  List.splitOn_eq_singleton h

theorem flatMap_pieces {ls : List Text} (h : ∀ l ∈ ls, '\n' ∉ l) : ls.flatMap pieces = ls := by
  induction ls with
  | nil => rfl
  | cons l ls ih =>
      obtain ⟨hl, hls⟩ := List.forall_mem_cons.mp h
      rw [List.flatMap_cons, pieces_of_not_mem hl, ih hls, List.singleton_append]

theorem pieces_append_newline (a b : Text) : pieces (a ++ '\n' :: b) = pieces a ++ pieces b :=
  List.splitOn_append_cons_self ..

theorem ofLines_cons (l : Text) {ls : List Text} (h : ls ≠ []) :
    ofLines (l :: ls) = l ++ '\n' :: ofLines ls := by
  cases ls with
  | nil => exact absurd rfl h
  | cons l' ls =>
      rw [ofLines, List.intercalate_cons_cons, List.append_assoc, List.singleton_append, ofLines]

theorem line_isPrefix_ofLines (l : Text) (ls : List Text) : l <+: ofLines (l :: ls) := by
  cases ls with
  | nil => exact ⟨[], by rw [ofLines, List.intercalate_singleton, List.append_nil]⟩
  | cons l' ls =>
      rw [ofLines_cons l (by simp)]
      exact List.prefix_append ..

/-- A character other than the newline comes from one of the lines. -/
theorem not_mem_ofLines {c : Char} (hc : c ≠ '\n') {ls : List Text} (h : ∀ l ∈ ls, c ∉ l) :
    c ∉ ofLines ls := by
  induction ls with
  | nil => simp [ofLines]
  | cons l ls ih =>
      obtain ⟨hl, hls⟩ := List.forall_mem_cons.mp h
      cases ls with
      | nil => simpa [ofLines] using hl
      | cons l' ls =>
          rw [ofLines_cons l (by simp), List.mem_append, List.mem_cons]
          simp [hl, hc, ih hls]

/-- A line that has newlines of its own is split at them too. -/
theorem pieces_ofLines {ls : List Text} (h : ls ≠ []) :
    pieces (ofLines ls) = ls.flatMap pieces := by
  induction ls with
  | nil => exact absurd rfl h
  | cons l ls ih =>
      cases ls with
      | nil => rw [ofLines, List.intercalate_singleton, List.flatMap_singleton]
      | cons l' ls =>
          rw [ofLines_cons l (by simp), pieces_append_newline, ih (by simp)]
          rfl

end Text

/-! ## Declarations and instructions -/

namespace Wat

theorem newline_not_mem_declaration {x : Text} (h : '\n' ∉ x) : '\n' ∉ declaration x := by
  simp only [declaration, line, List.mem_append, not_or]
  exact ⟨by decide, ⟨by decide, h⟩, by decide⟩

theorem pieces_module {names lines : List Text} (hnames : ∀ x ∈ names, '\n' ∉ x)
    (hlines : ∀ l ∈ lines, '\n' ∉ l) :
    Text.pieces (Text.ofLines ([opening] ++ names.map declaration ++ lines ++ [closing])) =
      Text.pieces opening ++ names.map declaration ++ lines ++ Text.pieces closing := by
  have hdeclarations : ∀ l ∈ names.map declaration, '\n' ∉ l := by
    intro l mem
    obtain ⟨x, hx, rfl⟩ := List.mem_map.mp mem
    exact newline_not_mem_declaration (hnames x hx)
  rw [Text.pieces_ofLines (by simp)]
  simp only [List.flatMap_append, List.flatMap_singleton, Text.flatMap_pieces hlines,
    Text.flatMap_pieces hdeclarations]

@[simp] theorem isDeclaration_declaration (x : Text) : isDeclaration (declaration x) = true := by
  rw [isDeclaration, List.isPrefixOf_iff_prefix]
  exact ⟨x ++ " i32)".toList, by simp [declaration, line]⟩

theorem isDeclaration_of_mem_map (names : List Text) :
    ∀ l ∈ names.map declaration, isDeclaration l = true := by
  simp

@[simp] theorem declared?_declaration (x : Text) : declared? (declaration x) = some x := by
  have head : (line "(local $".toList).isPrefixOf? (declaration x) = some (x ++ " i32)".toList) := by
    simp [declaration, line]
  have tail : " i32)".toList.isSuffixOf? (x ++ " i32)".toList) = some x := by simp
  rw [declared?, head, Option.bind_some, tail]

theorem declaration_injective : Function.Injective declaration := by
  intro x y same
  have declared := congrArg declared? same
  rw [declared?_declaration, declared?_declaration] at declared
  exact Option.some.inj declared

@[simp] theorem ofLine?_const (t : Text) :
    Instruction.ofLine? ("    i32.const ".toList ++ t) = (literal? t).map .const := rfl

@[simp] theorem ofLine?_get (x : Text) :
    Instruction.ofLine? ("    local.get $".toList ++ x) = some (.get x) := rfl

@[simp] theorem ofLine?_set (x : Text) :
    Instruction.ofLine? ("    local.set $".toList ++ x) = some (.set x) := rfl

theorem ofLine?_declaration (x : Text) : Instruction.ofLine? (declaration x) = none := rfl

/-! ## The lines of words -/

/-- The characters that bound the parts of a module text: parentheses, quotes, the semicolon of
a comment, and the newline. -/
def delimiters : Text := "()\"';\n".toList

theorem isDeclaration_of_translates {w : Word} {ls : List Text}
    (h : Word.Translates .standard w ls) : ∀ l ∈ ls, isDeclaration l = false := by
  intro l mem
  cases h with
  | numeral _ =>
      rw [List.mem_singleton.mp mem]
      rfl
  | operation found =>
      rcases Vocabulary.standard_cases found with
        ⟨_, rfl⟩ | ⟨_, rfl⟩ | ⟨_, rfl⟩ | ⟨_, rfl⟩ | ⟨_, rfl⟩ | ⟨_, rfl⟩ <;>
      revert l <;> decide
  | fetch _ =>
      rw [List.mem_singleton.mp mem]
      rfl
  | store _ =>
      rw [List.mem_singleton.mp mem]
      rfl

/-- A delimiter in a line of a word comes from the word. -/
theorem delimiter_not_mem_of_translates {c : Char} (hc : c ∈ delimiters) {w : Word}
    {ls : List Text} (h : Word.Translates .standard w ls) (hw : c ∉ w) : ∀ l ∈ ls, c ∉ l := by
  have fixed : ∀ c ∈ delimiters, c ∉ "    i32.const ".toList ∧ c ∉ "    local.get $".toList ∧
      c ∉ "    local.set $".toList := Text.forall_mem_of_all (by decide)
  obtain ⟨const, get, set⟩ := fixed c hc
  intro l mem
  cases h with
  | numeral _ =>
      rw [List.mem_singleton.mp mem, List.mem_append, not_or]
      exact ⟨const, hw⟩
  | operation found =>
      rcases Vocabulary.standard_cases found with
        ⟨_, rfl⟩ | ⟨_, rfl⟩ | ⟨_, rfl⟩ | ⟨_, rfl⟩ | ⟨_, rfl⟩ | ⟨_, rfl⟩ <;>
      exact Text.forall_mem_of_all (P := fun c => ∀ l ∈ _, c ∉ l) (by decide) c hc l mem
  | fetch _ =>
      rw [List.mem_singleton.mp mem, List.mem_append, not_or]
      exact ⟨get, hw⟩
  | store _ =>
      rw [List.mem_singleton.mp mem, List.mem_append, not_or]
      exact ⟨set, fun inName => hw (List.mem_append_left _ inName)⟩

/-- The mark of a store is not in its line, and no other word of the language holds a mark. -/
theorem mark_not_mem_of_translates {w : Word} {ls : List Text}
    (h : Word.Translates .standard w ls) : ∀ l ∈ ls, '!' ∉ l := by
  intro l mem
  cases h with
  | numeral numeral =>
      have noMark : '!' ∉ w := by
        intro mark
        rw [Numeral.isNumeral_eq_false_of_mem mark (by decide)] at numeral
        cases numeral
      simp [List.mem_singleton.mp mem, noMark]
  | operation found =>
      rcases Vocabulary.standard_cases found with
        ⟨_, rfl⟩ | ⟨_, rfl⟩ | ⟨_, rfl⟩ | ⟨_, rfl⟩ | ⟨_, rfl⟩ | ⟨_, rfl⟩ <;>
      revert l <;> simp
  | fetch var =>
      have noMark := Word.mark_not_mem_of_hasNameShape (Word.isVariable_eq_true_iff.mp var).1
      simp [List.mem_singleton.mp mem, noMark]
  | store var =>
      have noMark := Word.mark_not_mem_of_hasNameShape (Word.isVariable_eq_true_iff.mp var).1
      simp [List.mem_singleton.mp mem, noMark]

theorem forall_mem_flatten_of_translates {P : Text → Prop} {ws : List Word}
    {ts : List (List Text)} (h : List.Forall₂ (Word.Translates .standard) ws ts)
    (each : ∀ w ∈ ws, ∀ ls, Word.Translates .standard w ls → ∀ l ∈ ls, P l) :
    ∀ l ∈ ts.flatten, P l := by
  induction h with
  | nil => simp
  | cons hw _ ih =>
      obtain ⟨here, later⟩ := List.forall_mem_cons.mp each
      rw [List.flatten_cons, List.forall_mem_append]
      exact ⟨here _ hw, ih later⟩

theorem isDeclaration_of_translations {ws : List Word} {ts : List (List Text)}
    (h : List.Forall₂ (Word.Translates .standard) ws ts) :
    ∀ l ∈ ts.flatten, isDeclaration l = false :=
  forall_mem_flatten_of_translates h fun _ _ _ hw => isDeclaration_of_translates hw

theorem delimiter_not_mem_of_translations {c : Char} (hc : c ∈ delimiters) {ws : List Word}
    {ts : List (List Text)} (h : List.Forall₂ (Word.Translates .standard) ws ts)
    (hws : ∀ w ∈ ws, c ∉ w) : ∀ l ∈ ts.flatten, c ∉ l :=
  forall_mem_flatten_of_translates h fun w mem _ hw =>
    delimiter_not_mem_of_translates hc hw (hws w mem)

theorem newline_not_mem_of_translations {ws : List Word} {ts : List (List Text)}
    (h : List.Forall₂ (Word.Translates .standard) ws ts) (hws : ∀ w ∈ ws, '\n' ∉ w) :
    ∀ l ∈ ts.flatten, '\n' ∉ l :=
  delimiter_not_mem_of_translations (by decide) h hws

/-! ## Reading a module back -/

theorem mapM_declared? (names : List Text) :
    (names.map declaration).mapM declared? = some names := by
  induction names with
  | nil => rfl
  | cons x names ih => rw [List.map_cons, List.mapM_cons, declared?_declaration, ih]; rfl

theorem takeWhile_isDeclaration {front lines : List Text}
    (declarations : ∀ l ∈ front, isDeclaration l = true)
    (instructions : ∀ l ∈ lines, isDeclaration l = false) :
    (front ++ lines).takeWhile isDeclaration = front := by
  rw [List.takeWhile_append_of_pos declarations]
  cases lines with
  | nil => simp
  | cons l lines =>
      have first := (List.forall_mem_cons.mp instructions).1
      rw [List.takeWhile_cons_of_neg (Bool.eq_false_iff.mp first), List.append_nil]

theorem dropWhile_isDeclaration {front lines : List Text}
    (declarations : ∀ l ∈ front, isDeclaration l = true)
    (instructions : ∀ l ∈ lines, isDeclaration l = false) :
    (front ++ lines).dropWhile isDeclaration = lines := by
  rw [List.dropWhile_append_of_pos declarations]
  cases lines with
  | nil => rfl
  | cons l lines =>
      have first := (List.forall_mem_cons.mp instructions).1
      rw [List.dropWhile_cons_of_neg (Bool.eq_false_iff.mp first)]

/-- Reading a module gives the names it declares and the instructions of its lines. -/
theorem read?_module {names lines : List Text} {body : List Instruction}
    (hnames : ∀ x ∈ names, '\n' ∉ x) (hlines : ∀ l ∈ lines, '\n' ∉ l)
    (instructions : ∀ l ∈ lines, isDeclaration l = false)
    (decoded : lines.mapM Instruction.ofLine? = some body) :
    Module.read? (Text.ofLines ([opening] ++ names.map declaration ++ lines ++ [closing])) =
      some ⟨names, body⟩ := by
  have front : (Text.pieces opening).isPrefixOf?
      (Text.pieces opening ++ names.map declaration ++ lines ++ Text.pieces closing) =
      some (names.map declaration ++ lines ++ Text.pieces closing) :=
    List.isPrefixOf?_eq_some_iff_append_eq.mpr (by simp only [List.append_assoc])
  have back : (Text.pieces closing).isSuffixOf?
      (names.map declaration ++ lines ++ Text.pieces closing) =
      some (names.map declaration ++ lines) :=
    List.isSuffixOf?_eq_some_iff_append_eq.mpr rfl
  have declarations := isDeclaration_of_mem_map names
  have inside : Module.ofLines? (names.map declaration ++ lines) = some ⟨names, body⟩ := by
    rw [Module.ofLines?, takeWhile_isDeclaration declarations instructions,
      dropWhile_isDeclaration declarations instructions, mapM_declared?, decoded]
    rfl
  rw [Module.read?, pieces_module hnames hlines, front, Option.bind_eq_bind, Option.bind_some, back,
    Option.bind_some, inside]

end Wat

end TinyForth
