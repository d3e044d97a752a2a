import Mathlib.Data.List.Nodup
import TinyForth.Proofs.Acceptance
import TinyForth.Proofs.ModuleText

/-!
# Declarations and uses

Variables are collected by one pass and used by another.  The first looks at what stands
before a final mark and never asks whether the word is a numeral or an operation.  The second
asks all of that.  Whatever the vocabulary, a variable that the second pass uses was found by
the first (`mem_of_uses`).  In the language's own vocabulary the converse holds too, since
there neither a numeral nor an operation looks like a variable or like one with a mark.

So a module declares each local that its instructions mention, once, and no other, and the
declarations stand before the first instruction.
-/

namespace TinyForth

/-! ## Uses of variables -/

namespace Word

/-- The word reads or writes the variable. -/
def Uses (v : Vocabulary) (w x : Word) : Prop :=
  w.meaning v = .ok (.fetch x) ∨ w.meaning v = .ok (.store x)

theorem Uses.inv {v : Vocabulary} {w x : Word} (h : Uses v w x) :
    isVariable v x = true ∧ (w = x ∨ w = x ++ ['!']) := by
  rcases h with fetch | store
  · rcases meaning_cases fetch with ⟨_, hm⟩ | ⟨_, _, _, hm⟩ | ⟨_, var, hm⟩ | ⟨_, _, _, _, _, hm⟩
    · cases hm
    · cases hm
    · cases hm
      exact ⟨var, Or.inl rfl⟩
    · cases hm
  · rcases meaning_cases store with ⟨_, hm⟩ | ⟨_, _, _, hm⟩ | ⟨_, _, hm⟩ | ⟨_, _, y, hw, var, hm⟩
    · cases hm
    · cases hm
    · cases hm
    · cases hm
      exact ⟨var, Or.inr hw⟩

/-- A variable that is used is found. -/
theorem mem_of_uses {v : Vocabulary} {ws names : List Word} {w x : Word}
    (found : variablesIn v ws = .ok names) (mem : w ∈ ws) (uses : Uses v w x) : x ∈ names := by
  obtain ⟨var, shape⟩ := uses.inv
  refine (mem_of_variablesIn found).mpr ⟨var, ?_⟩
  rcases shape with rfl | rfl
  · exact Or.inl mem
  · exact Or.inr mem

theorem uses_standard_iff {w x : Word} :
    Uses .standard w x ↔ isVariable .standard x = true ∧ (w = x ∨ w = x ++ ['!']) := by
  refine ⟨Uses.inv, ?_⟩
  rintro ⟨var, rfl | rfl⟩
  · exact Or.inl (meaning_of_isVariable var)
  · exact Or.inr (meaning_mark var (Vocabulary.standard_mark x))

/-- In the language's own vocabulary the variables found are the ones used. -/
theorem mem_iff_uses {ws names : List Word} {x : Word}
    (found : variablesIn .standard ws = .ok names) :
    x ∈ names ↔ ∃ w ∈ ws, Uses .standard w x := by
  refine ⟨?_, fun ⟨_, mem, uses⟩ => mem_of_uses found mem uses⟩
  intro mem
  obtain ⟨var, plain | mark⟩ := (mem_of_variablesIn found).mp mem
  · exact ⟨x, plain, uses_standard_iff.mpr ⟨var, Or.inl rfl⟩⟩
  · exact ⟨x ++ ['!'], mark, uses_standard_iff.mpr ⟨var, Or.inr rfl⟩⟩

end Word

/-! ## Mentions of locals -/

namespace Wat

/-- The line reads or writes the local. -/
def Mentions (x l : Text) : Prop :=
  l = "    local.get $".toList ++ x ∨ l = "    local.set $".toList ++ x

/-- The local that an instruction reads or writes. -/
def Instruction.local? : Instruction → Option Text
  | .get x | .set x => some x
  | _ => none

theorem local?_of_mentions {x l : Text} (h : Mentions x l) :
    (Instruction.ofLine? l).bind Instruction.local? = some x := by
  rcases h with rfl | rfl
  · rfl
  · rfl

theorem local?_of_standard {w : Text} {code : List Text} (h : Vocabulary.standard[w]? = some code) :
    ∀ t ∈ code, (Instruction.ofLine? ("    ".toList ++ t)).bind Instruction.local? = none := by
  rcases Vocabulary.standard_cases h with
    ⟨_, rfl⟩ | ⟨_, rfl⟩ | ⟨_, rfl⟩ | ⟨_, rfl⟩ | ⟨_, rfl⟩ | ⟨_, rfl⟩ <;> decide

theorem uses_of_mentions {w : Word} {ls : List Text} {x l : Text}
    (h : Word.Translates .standard w ls) (mem : l ∈ ls) (mentions : Mentions x l) :
    Word.Uses .standard w x := by
  have found := local?_of_mentions mentions
  cases h with
  | numeral _ =>
      rw [List.mem_singleton.mp mem, ofLine?_const] at found
      cases hn : literal? w with
      | none => rw [hn] at found; cases found
      | some n => rw [hn] at found; cases found
  | operation code =>
      obtain ⟨t, ht, rfl⟩ := List.mem_map.mp mem
      rw [local?_of_standard code t ht] at found
      cases found
  | fetch var =>
      rw [List.mem_singleton.mp mem, ofLine?_get] at found
      cases found
      exact Word.uses_standard_iff.mpr ⟨var, Or.inl rfl⟩
  | store var =>
      rw [List.mem_singleton.mp mem, ofLine?_set] at found
      cases found
      exact Word.uses_standard_iff.mpr ⟨var, Or.inr rfl⟩

theorem mentions_of_uses {w x : Word} {ls : List Text} (h : Word.Translates .standard w ls)
    (uses : Word.Uses .standard w x) : ∃ l ∈ ls, Mentions x l := by
  obtain ⟨var, rfl | rfl⟩ := uses.inv
  · rw [h.unique (.fetch var)]
    exact ⟨_, List.mem_singleton.mpr rfl, Or.inl rfl⟩
  · rw [h.unique (.store var)]
    exact ⟨_, List.mem_singleton.mpr rfl, Or.inr rfl⟩

/-- The code of a program mentions the variables that its words use. -/
theorem exists_mentions_iff {ws : List Word} {ts : List (List Text)} {x : Word}
    (h : List.Forall₂ (Word.Translates .standard) ws ts) :
    (∃ l ∈ ts.flatten, Mentions x l) ↔ ∃ w ∈ ws, Word.Uses .standard w x := by
  induction h with
  | nil => simp
  | @cons w ls ws ts hw _ ih =>
      rw [List.flatten_cons]
      constructor
      · rintro ⟨l, mem, mentions⟩
        rcases List.mem_append.mp mem with here | later
        · exact ⟨w, List.mem_cons_self .., uses_of_mentions hw here mentions⟩
        · obtain ⟨w', mem', uses⟩ := ih.mp ⟨l, later, mentions⟩
          exact ⟨w', List.mem_cons_of_mem _ mem', uses⟩
      · rintro ⟨w', mem, uses⟩
        rcases List.mem_cons.mp mem with rfl | later
        · obtain ⟨l, here, mentions⟩ := mentions_of_uses hw uses
          exact ⟨l, List.mem_append_left _ here, mentions⟩
        · obtain ⟨l, there, mentions⟩ := ih.mpr ⟨w', later, uses⟩
          exact ⟨l, List.mem_append_right _ there, mentions⟩

/-! ## The declarations of a module -/

theorem count_declaration {names : List Text} {x : Text} (nodup : names.Nodup) (mem : x ∈ names) :
    (names.map declaration).count (declaration x) = 1 :=
  List.count_eq_one_of_mem (nodup.map declaration_injective) (List.mem_map_of_mem mem)

theorem declaration_not_mem {ls : List Text} (h : ∀ l ∈ ls, isDeclaration l = false) (x : Text) :
    declaration x ∉ ls := by
  intro mem
  have declares := isDeclaration_declaration x
  rw [h _ mem] at declares
  cases declares

end Wat

namespace Word

theorem newline_not_mem_of_isVariable {v : Vocabulary} {x : Word} (h : isVariable v x = true) :
    '\n' ∉ x :=
  not_mem_of_hasNameShape (isVariable_eq_true_iff.mp h).1 (Text.isAlphanumeric_eq_false (by decide))

theorem newline_not_mem_of_variablesIn {v : Vocabulary} {ws names : List Word}
    (found : variablesIn v ws = .ok names) : ∀ x ∈ names, '\n' ∉ x :=
  fun _ mem => newline_not_mem_of_isVariable ((mem_of_variablesIn found).mp mem).1

end Word

namespace Compiler

theorem newline_not_mem_of_source {source : Text} {w : Word}
    (h : w ∈ Comment.strip (sourceWords source)) : '\n' ∉ w := by
  intro newline
  have blank := Text.isBlank_eq_false_of_mem_words (Comment.mem_of_mem_strip h) '\n' newline
  revert blank
  decide

/-- The two passes agree on the variables.  Whatever the vocabulary, the variables that code
is generated for are among those found.  In the language's own vocabulary they are the same,
and a module declares each local that its instructions mention once, declares no other, and
has its declarations before the first instruction. -/
theorem declarations_agree_with_code :
    (∀ v ws names, Word.variablesIn v ws = .ok names → (Code.generate v ws).error? = none →
      ∀ x, (∃ w ∈ ws, Word.Uses v w x) → x ∈ names) ∧
    (∀ ws names, Word.variablesIn .standard ws = .ok names →
      (Code.generate .standard ws).error? = none →
      ∀ x, x ∈ names ↔ ∃ w ∈ ws, Word.Uses .standard w x) ∧
    (∀ source text, compile source = .ok text →
      let body := (Code.generate .standard (Comment.strip (sourceWords source))).lines
      ∃ names : List Word, Text.pieces text = Text.pieces Wat.opening ++
          names.map Wat.declaration ++ body ++ Text.pieces Wat.closing ∧
        (∀ l ∈ Text.pieces Wat.opening ++ names.map Wat.declaration,
          Wat.Instruction.ofLine? l = none) ∧
        (∀ l ∈ Text.pieces Wat.opening ++ body ++ Text.pieces Wat.closing,
          Wat.isDeclaration l = false) ∧
        (∀ x, (∃ l ∈ body, Wat.Mentions x l) → (Text.pieces text).count (Wat.declaration x) = 1) ∧
        (∀ x, Wat.declaration x ∈ Text.pieces text → ∃ l ∈ body, Wat.Mentions x l)) := by
  refine ⟨?_, ?_, ?_⟩
  · rintro v ws names found _ x ⟨w, mem, uses⟩
    exact Word.mem_of_uses found mem uses
  · intro ws names found _ x
    exact Word.mem_iff_uses found
  · intro source text compiled body
    obtain ⟨names, ts, found, translated, rfl⟩ := translations_of_compileWords compiled
    have lines : body = ts.flatten := congrArg Code.lines (Code.generate_of_translates translated)
    rw [lines]
    have noNewline := Wat.newline_not_mem_of_translations translated
      fun _ mem => newline_not_mem_of_source mem
    have instructions := Wat.isDeclaration_of_translations translated
    have pieces := Wat.pieces_module (Word.newline_not_mem_of_variablesIn found) noNewline
    have opening : ∀ l ∈ Text.pieces Wat.opening, Wat.isDeclaration l = false := by decide
    have closing : ∀ l ∈ Text.pieces Wat.closing, Wat.isDeclaration l = false := by decide
    have mentioned : ∀ x, (∃ l ∈ ts.flatten, Wat.Mentions x l) ↔ x ∈ names := by
      intro x
      rw [Wat.exists_mentions_iff translated, Word.mem_iff_uses found]
    rw [pieces]
    refine ⟨names, rfl, ?_, ?_, ?_, ?_⟩
    · rw [List.forall_mem_append, List.forall_mem_map]
      exact ⟨by decide, fun x _ => Wat.ofLine?_declaration x⟩
    · simp only [List.forall_mem_append]
      exact ⟨⟨opening, instructions⟩, closing⟩
    · intro x mentions
      have mem := (mentioned x).mp mentions
      simp only [List.count_append]
      rw [List.count_eq_zero.mpr (Wat.declaration_not_mem opening x),
        List.count_eq_zero.mpr (Wat.declaration_not_mem instructions x),
        List.count_eq_zero.mpr (Wat.declaration_not_mem closing x),
        Wat.count_declaration (Word.nodup_of_variablesIn found) mem]
    · intro x mem
      rw [mentioned]
      simp only [List.mem_append] at mem
      rcases mem with ((inOpening | declared) | inBody) | inClosing
      · exact absurd inOpening (Wat.declaration_not_mem opening x)
      · exact (List.mem_map_of_injective Wat.declaration_injective).mp declared
      · exact absurd inBody (Wat.declaration_not_mem instructions x)
      · exact absurd inClosing (Wat.declaration_not_mem closing x)

/-- The source `7 x! x .` declares its one variable. -/
theorem declarations_of_small_source :
    ∃ text, compile "7 x! x .".toList = .ok text ∧
      (Text.pieces text).count "    (local $x i32)".toList = 1 := by
  obtain ⟨text, compiled⟩ : ∃ text, compile "7 x! x .".toList = .ok text :=
    exists_compileWords_iff.mpr (by decide +kernel)
  obtain ⟨_, _, _, _, once, _⟩ := declarations_agree_with_code.2.2 _ text compiled
  exact ⟨text, compiled,
    once "x".toList ⟨"    local.get $x".toList, by decide +kernel, Or.inl rfl⟩⟩

end Compiler

end TinyForth
