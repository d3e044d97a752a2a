import TinyForth.Command.Compile
import TinyForth.Proofs.Generation
import TinyForth.Proofs.Utf8

/-!
# Which sources are accepted

A source is compiled if every word outside its comments is in the grammar.  The module is
then the opening, a declaration for each variable, the translations of the words and the
closing, joined by newlines.  All statements are about a run of the compile command on a
source file that holds the UTF-8 bytes of the source.

The words of a source are never empty.  A run that has collected the variables has also met
no mark alone, so the only error left to the second pass is an unknown word.
-/

namespace TinyForth

/-! ## The words of a source -/

namespace Text

theorem mem_of_mem_splitOnP (p : Char → Bool) (t : Text) :
    ∀ w ∈ t.splitOnP p, ∀ c ∈ w, c ∈ t ∧ p c = false := by
  induction t with
  | nil => simp [List.splitOnP_nil]
  | cons d t ih =>
      have later : ∀ w ∈ t.splitOnP p, ∀ c ∈ w, c ∈ d :: t ∧ p c = false := fun w hw c hc =>
        (ih w hw c hc).imp_left (List.mem_cons_of_mem d)
      cases hd : p d with
      | true =>
          rw [List.splitOnP_cons_eq_if_modifyHead, if_pos hd]
          exact List.forall_mem_cons.mpr ⟨by simp, later⟩
      | false =>
          rw [List.splitOnP_cons_eq_if_modifyHead, if_neg (Bool.eq_false_iff.mp hd)]
          cases pieces : t.splitOnP p with
          | nil => exact absurd pieces (List.splitOnP_ne_nil p t)
          | cons front rest =>
              rw [pieces] at later
              obtain ⟨inFront, inRest⟩ := List.forall_mem_cons.mp later
              exact List.forall_mem_cons.mpr
                ⟨List.forall_mem_cons.mpr ⟨⟨List.mem_cons_self .., hd⟩, inFront⟩, inRest⟩

theorem ne_nil_of_mem_words {t w : Text} (h : w ∈ t.words) : w ≠ [] := by
  have nonempty := (List.mem_filter.mp h).2
  rintro rfl
  cases nonempty

theorem mem_of_mem_words {t w : Text} (h : w ∈ t.words) : ∀ c ∈ w, c ∈ t :=
  fun c hc => (mem_of_mem_splitOnP isBlank t w (List.mem_filter.mp h).1 c hc).1

theorem isBlank_eq_false_of_mem_words {t w : Text} (h : w ∈ t.words) :
    ∀ c ∈ w, isBlank c = false :=
  fun c hc => (mem_of_mem_splitOnP isBlank t w (List.mem_filter.mp h).1 c hc).2

end Text

namespace Comment

theorem stripFrom_sublist (inside : Bool) (ws : List Text) :
    (stripFrom inside ws).Sublist ws := by
  induction ws generalizing inside with
  | nil => cases inside <;> exact .slnil
  | cons w ws ih =>
      cases inside with
      | true => exact (ih _).cons w
      | false =>
          rw [stripFrom]
          split
          · exact (ih true).cons w
          · exact (ih false).cons_cons w

theorem mem_of_mem_strip {ws : List Text} {w : Text} (h : w ∈ strip ws) : w ∈ ws :=
  (stripFrom_sublist false ws).subset h

end Comment

/-! ## Compiling words of the language -/

namespace Compiler

open Word (Translates Grammatical)

section

variable {ws : List Word} {listing : Word.Listing}

theorem compileWords_of_translates {ts : List (List Text)}
    (h : List.Forall₂ (Translates .standard) ws ts) :
    ∃ names, Word.variablesIn .standard ws listing = .ok names ∧
      compileWords .standard ws listing = .ok (Text.ofLines
        ([Wat.opening] ++ names.map Wat.declaration ++ ts.flatten ++ [Wat.closing])) := by
  have generated := Code.generate_of_translates h
  have grammatical := Code.generate_error?_eq_none_iff.mp (congrArg Code.error? generated)
  have named : ∀ w ∈ ws, w.name ≠ [] :=
    fun w mem => Word.name_ne_nil_of_grammatical (grammatical w mem)
  refine ⟨_, Word.variablesIn_of_names named, ?_⟩
  rw [compileWords, Word.variablesIn_of_names named]
  dsimp only
  rw [generated]

theorem exists_compileWords_iff :
    (∃ module, compileWords .standard ws listing = .ok module) ↔
      ∀ w ∈ ws, Grammatical .standard w := by
  constructor
  · rintro ⟨module, h⟩
    refine Code.generate_error?_eq_none_iff.mp ?_
    unfold compileWords at h
    split at h
    next => cases h
    next names _ =>
      split at h
      next => cases h
      next lines generated => rw [generated]
  · intro grammatical
    obtain ⟨ts, translated, _⟩ :=
      Code.exists_translations (Code.generate_error?_eq_none_iff.mpr grammatical)
    obtain ⟨names, _, compiled⟩ := compileWords_of_translates translated
    exact ⟨_, compiled⟩

/-- What is known of an accepted list of words. -/
theorem translations_of_compileWords {module : Text}
    (h : compileWords .standard ws listing = .ok module) :
    ∃ names ts, Word.variablesIn .standard ws listing = .ok names ∧
      List.Forall₂ (Translates .standard) ws ts ∧
      module = Text.ofLines
        ([Wat.opening] ++ names.map Wat.declaration ++ ts.flatten ++ [Wat.closing]) := by
  have grammatical := exists_compileWords_iff.mp ⟨module, h⟩
  obtain ⟨ts, translated, _⟩ :=
    Code.exists_translations (Code.generate_error?_eq_none_iff.mpr grammatical)
  obtain ⟨names, found, compiled⟩ := compileWords_of_translates translated
  exact ⟨names, ts, found, translated, Except.ok.inj (h.symm.trans compiled)⟩

theorem compileWords_of_error {v : Vocabulary} {names : List Word} {e : Word.Error}
    (found : Word.variablesIn v ws listing = .ok names)
    (failed : (Code.generate v ws).error? = some e) : compileWords v ws listing = .error e := by
  rw [compileWords, found]
  cases generated : Code.generate v ws with
  | mk lines error? =>
      rw [generated] at failed
      cases failed
      rfl

theorem compileWords_of_empty_name {v : Vocabulary} {w : Word} (mem : w ∈ ws)
    (noName : w.name = []) : compileWords v ws listing = .error .empty := by
  rw [compileWords, Word.variablesIn_of_empty_name mem noName]

/-- An error does not depend on the order of the variables. -/
theorem compileWords_error_congr {v : Vocabulary} {e : Word.Error}
    (h : compileWords v ws listing = .error e) (listing' : Word.Listing) :
    compileWords v ws listing' = .error e := by
  unfold compileWords Word.variablesIn at h ⊢
  cases checked : Word.variablesAmong v (ws.map Word.name) with
  | error e' =>
      rw [checked] at h
      exact h
  | ok found =>
      rw [checked] at h
      cases generated : Code.generate v ws with
      | mk lines error? =>
          rw [generated] at h
          cases error? with
          | none => cases h
          | some e' => exact h

end

end Compiler

/-! ## Reading the source -/

namespace Command

theorem readSource_of_decode {tree : FileTree} {args : List Text} {name source : Text}
    {bytes : List UInt8} (named : args[1]? = some name) (readable : tree.read name = .ok bytes)
    (decoded : Utf8.decode bytes = .ok source) (shown : Text) :
    readSource tree args shown = .ok (Compiler.sourceWords source) := by
  simp only [readSource, named, readable, wordsOfBytes, decoded]
  rfl

theorem readSource_of_fault {tree : FileTree} {args : List Text} {name : Text}
    {bytes : List UInt8} {fault : Utf8.Fault} (named : args[1]? = some name)
    (readable : tree.read name = .ok bytes) (undecodable : Utf8.decode bytes = .error fault)
    (shown : Text) : readSource tree args shown = .error (.failed (.encoding fault)) := by
  simp only [readSource, named, readable, wordsOfBytes, undecodable]
  rfl

/-- Words that were read are the words of some text. -/
theorem exists_source {tree : FileTree} {args : List Text} {shown : Text} {ws : List Word}
    (h : readSource tree args shown = .ok ws) : ∃ source, ws = Compiler.sourceWords source := by
  unfold readSource at h
  split at h
  next => cases h
  next name _ =>
    split at h
    next => cases h
    next => cases h
    next bytes _ =>
      cases decoded : Utf8.decode bytes with
      | error fault =>
          rw [wordsOfBytes, decoded] at h
          cases h
      | ok source =>
          rw [wordsOfBytes, decoded] at h
          exact ⟨source, (Except.ok.inj h).symm⟩

/-! ## Running the command -/

/-- A run on a source that can be read and decoded is a run of the compiler on its text. -/
theorem compileSource_of_decode {tree : FileTree} {command name source : Text}
    {bytes : List UInt8} {listing : Word.Listing} (readable : tree.read name = .ok bytes)
    (decoded : Utf8.decode bytes = .ok source) :
    compileSource tree [command, name] listing =
      match Compiler.compile source listing with
      | .error e => .error (.failed (.word e))
      | .ok module => .ok (FileName.root name, module) := by
  have words : readSource tree [command, name] name = .ok (Compiler.sourceWords source) :=
    readSource_of_decode rfl readable decoded name
  simp only [compileSource, argument, bind, Except.bind, words, moduleOfWords, Compiler.compile]
  cases Compiler.compileWords .standard (Comment.strip (Compiler.sourceWords source)) listing with
  | error e => rfl
  | ok module => rfl

theorem compile_of_decode {tree : FileTree} {command name source : Text} {bytes : List UInt8}
    {tools : Toolchain} (readable : tree.read name = .ok bytes)
    (decoded : Utf8.decode bytes = .ok source) :
    compile tree [command, name] tools =
      match Compiler.compile source tools.listing with
      | .error e => { tree, ending := .failed (.word e) }
      | .ok module => writeOutputs tree (FileName.root name) module tools.binary := by
  rw [compile, compileSource_of_decode readable decoded]
  cases Compiler.compile source tools.listing with
  | error e => rfl
  | ok module => rfl

theorem exists_compileSource_iff {tree : FileTree} {command name source : Text}
    (readable : tree.read name = .ok (Utf8.encode source)) :
    (∃ module, compileSource tree [command, name] = .ok (FileName.root name, module)) ↔
      ∃ module, Compiler.compile source = .ok module := by
  rw [compileSource_of_decode readable (Utf8.decode_encode source)]
  cases Compiler.compile source with
  | error e => simp
  | ok module => simp

theorem compile_of_module {tree : FileTree} {command name source module : Text}
    (readable : tree.read name = .ok (Utf8.encode source))
    (compiled : Compiler.compile source = .ok module) :
    compile tree [command, name] = writeOutputs tree (FileName.root name) module := by
  rw [compile_of_decode readable (Utf8.decode_encode source), compiled]

theorem compile_of_error {tree : FileTree} {command name source : Text} {e : Word.Error}
    (readable : tree.read name = .ok (Utf8.encode source))
    (failed : Compiler.compile source = .error e) :
    compile tree [command, name] = { tree, ending := .failed (.word e) } := by
  rw [compile_of_decode readable (Utf8.decode_encode source), failed]

/-- A run on a readable source writes its outputs exactly if the words outside comments are in
the grammar.  What it writes is the opening, the declarations, the translations in the order
of the words, and the closing.  Once the variables are collected, no word is about the empty
name, and the only error left is an unknown word. -/
theorem compile_accepts_the_grammar (tree : FileTree) (command name source : Text)
    (readable : tree.read name = .ok (Utf8.encode source)) :
    let ws := Comment.strip (Compiler.sourceWords source)
    ((∃ module, compileSource tree [command, name] = .ok (FileName.root name, module)) ↔
      ∀ w ∈ ws, Word.Grammatical .standard w) ∧
    (∀ ts, List.Forall₂ (Word.Translates .standard) ws ts →
      ∃ names : List Word, names.Nodup ∧
        (∀ x, x ∈ names ↔ Word.isVariable .standard x = true ∧ (x ∈ ws ∨ x ++ ['!'] ∈ ws)) ∧
        compile tree [command, name] = writeOutputs tree (FileName.root name)
          (List.intercalate ['\n'] ([Wat.opening] ++
            names.map (fun x => "    (local $".toList ++ x ++ " i32)".toList) ++
            ts.flatten ++ [Wat.closing]))) ∧
    (∀ names, Word.variablesIn .standard ws = .ok names →
      (∀ w ∈ ws, w ≠ [] ∧ (w.getLast? = some '!' → w.dropLast ≠ [])) ∧
      ∀ e, (Code.generate .standard ws).error? = some e → ∃ w ∈ ws, e = .unknown w) := by
  intro ws
  refine ⟨?_, ?_, ?_⟩
  · rw [exists_compileSource_iff readable]
    exact Compiler.exists_compileWords_iff
  · intro ts translated
    obtain ⟨names, found, compiled⟩ := Compiler.compileWords_of_translates translated
    exact ⟨names, Word.nodup_of_variablesIn found, fun _ => Word.mem_of_variablesIn found,
      compile_of_module readable compiled⟩
  · intro names found
    have named := Word.name_ne_nil_of_variablesIn found
    refine ⟨?_, ?_⟩
    · intro w mem
      refine ⟨Text.ne_nil_of_mem_words (Comment.mem_of_mem_strip mem), ?_⟩
      intro last empty
      have whole := List.dropLast_append_getLast? '!' last
      rw [empty] at whole
      exact named w mem (Word.name_eq_nil_iff.mpr (Or.inr whole.symm))
    · intro e failed
      obtain ⟨before, w, after, split, _, bad⟩ := Code.error_of_generate failed
      have mem : w ∈ ws := by
        rw [split]
        exact List.mem_append_right before (List.mem_cons_self ..)
      obtain ⟨_, error⟩ := Word.meaning_error_cases bad
      rw [if_neg (named w mem)] at error
      exact ⟨w, mem, error⟩

/-- The source `7 x! x nl` in a directory of its own, and its module line by line. -/
theorem compile_accepts_small_source :
    let source := "7 x! x nl".toList
    let tree := FileTree.ofList [("p.4th".toList, .file (Utf8.encode source))]
    let args := ["forth".toList, "p.4th".toList]
    tree.read "p.4th".toList = .ok (Utf8.encode source) ∧
      (∃ module, compileSource tree args = .ok ("p".toList, module)) ∧
      compile tree args = writeOutputs tree "p".toList (List.intercalate ['\n']
        [Wat.opening, "    (local $x i32)".toList, "    i32.const 7".toList,
          "    local.set $x".toList, "    local.get $x".toList, "    i32.const 10".toList,
          "    call $emit".toList, Wat.closing]) ∧
      ∀ w ∈ Comment.strip (Compiler.sourceWords source),
        w ≠ [] ∧ (w.getLast? = some '!' → w.dropLast ≠ []) := by
  intro source tree args
  have readable : tree.read "p.4th".toList = .ok (Utf8.encode source) := rfl
  obtain ⟨accepted, text, named⟩ :=
    compile_accepts_the_grammar tree "forth".toList "p.4th".toList source readable
  have words : Comment.strip (Compiler.sourceWords source) =
      ["7".toList, "x".toList ++ ['!'], "x".toList, "nl".toList] := by decide
  have found : Word.variablesIn .standard (Comment.strip (Compiler.sourceWords source)) =
      .ok ["x".toList] := by decide +kernel
  have var : Word.isVariable .standard "x".toList = true := by decide +kernel
  have newline : Vocabulary.standard["nl".toList]? =
      some ["i32.const 10".toList, "call $emit".toList] := by decide +kernel
  have translated : List.Forall₂ (Word.Translates .standard)
      (Comment.strip (Compiler.sourceWords source))
      [["    i32.const 7".toList], ["    local.set $x".toList], ["    local.get $x".toList],
        ["    i32.const 10".toList, "    call $emit".toList]] := by
    rw [words]
    exact .cons (.numeral (by decide +kernel)) (.cons (.store var) (.cons (.fetch var)
      (.cons (.operation newline) .nil)))
  obtain ⟨names, nodup, mem, compiled⟩ := text _ translated
  have names_eq : names = ["x".toList] := List.perm_singleton.mp
    ((List.perm_ext_iff_of_nodup nodup (by simp)).mpr fun x =>
      (mem x).trans (Word.mem_of_variablesIn found).symm)
  rw [names_eq] at compiled
  exact ⟨readable, accepted.mpr (by decide +kernel), compiled, (named _ found).1⟩

/-- A run on a readable source with a word outside the grammar names the first such word,
unless the mark alone is among the words.  Then it is the first pass that fails, on the empty
name, wherever the mark stands. -/
theorem compile_diagnoses_first_word (tree : FileTree) (command name source : Text)
    (readable : tree.read name = .ok (Utf8.encode source))
    (outside : ∃ w ∈ Comment.strip (Compiler.sourceWords source), ¬ Word.Grammatical .standard w) :
    let ws := Comment.strip (Compiler.sourceWords source)
    ∃ before w after, ws = before ++ w :: after ∧ (∀ b ∈ before, Word.Grammatical .standard b) ∧
      ¬ Word.Grammatical .standard w ∧
      (compile tree [command, name] = { tree, ending := .failed (.word (.unknown w)) } ↔
        ['!'] ∉ ws) ∧
      (Failure.word (.unknown w)).message = "'".toList ++ w ++ "' is not a valid word".toList ∧
      (['!'] ∈ ws →
        compile tree [command, name] = { tree, ending := .failed (.word .empty) }) ∧
      (Failure.word .empty).message = "string index out of range".toList := by
  intro ws
  obtain ⟨bad, memBad, ungrammatical⟩ := outside
  cases failed : (Code.generate .standard ws).error? with
  | none =>
      exact absurd (Code.generate_error?_eq_none_iff.mp failed bad memBad) ungrammatical
  | some e =>
      obtain ⟨before, w, after, split, good, noMeaning⟩ := Code.error_of_generate failed
      obtain ⟨_, error⟩ := Word.meaning_error_cases noMeaning
      have lone : ['!'] ∈ ws →
          compile tree [command, name] = { tree, ending := .failed (.word .empty) } := by
        intro mem
        exact compile_of_error readable
          (Compiler.compileWords_of_empty_name mem (Word.name_mark []))
      have first : ['!'] ∉ ws →
          compile tree [command, name] = { tree, ending := .failed (.word (.unknown w)) } := by
        intro noMark
        have named : ∀ w ∈ ws, Word.name w ≠ [] := by
          intro w mem noName
          rcases Word.name_eq_nil_iff.mp noName with rfl | rfl
          · exact Text.ne_nil_of_mem_words (Comment.mem_of_mem_strip mem) rfl
          · exact noMark mem
        have mem : w ∈ ws := by
          rw [split]
          exact List.mem_append_right before (List.mem_cons_self ..)
        rw [if_neg (named w mem)] at error
        rw [error] at failed
        exact compile_of_error readable
          (Compiler.compileWords_of_error (Word.variablesIn_of_names named) failed)
      refine ⟨before, w, after, split, good, Word.not_grammatical_of_meaning_error noMeaning,
        ⟨?_, first⟩, rfl, lone, rfl⟩
      intro named mem
      rw [lone mem] at named
      cases named

/-- The mark alone is a word outside the grammar, and a run on it does not name it. -/
theorem compile_mark_alone :
    let source := "!".toList
    let tree := FileTree.ofList [("p.4th".toList, .file (Utf8.encode source))]
    ¬ Word.Grammatical .standard "!".toList ∧
      Comment.strip (Compiler.sourceWords source) = ["!".toList] ∧
      (compile tree ["forth".toList, "p.4th".toList]).ending = .failed (.word .empty) ∧
      Failure.word .empty ≠ .word (.unknown "!".toList) := by
  intro source tree
  exact ⟨by decide +kernel, by decide +kernel, rfl, by decide⟩

/-- The source `7 ?` in a directory of its own. -/
theorem compile_diagnoses_small_source :
    let source := "7 ?".toList
    let tree := FileTree.ofList [("p.4th".toList, .file (Utf8.encode source))]
    tree.read "p.4th".toList = .ok (Utf8.encode source) ∧
      compile tree ["forth".toList, "p.4th".toList] =
        { tree, ending := .failed (.word (.unknown "?".toList)) } := by
  intro source tree
  have readable : tree.read "p.4th".toList = .ok (Utf8.encode source) := rfl
  have words : Comment.strip (Compiler.sourceWords source) = ["7".toList, "?".toList] := by
    decide +kernel
  have outside : ∃ w ∈ Comment.strip (Compiler.sourceWords source),
      ¬ Word.Grammatical .standard w := by decide +kernel
  obtain ⟨before, w, after, split, _, bad, named, _⟩ :=
    compile_diagnoses_first_word tree "forth".toList _ source readable outside
  have second : w = "?".toList := by
    rw [words] at split
    cases before with
    | nil =>
        cases split
        exact absurd (by decide +kernel) bad
    | cons b before =>
        cases before with
        | nil => cases split; rfl
        | cons b' before => simp at split
  refine ⟨readable, ?_⟩
  rw [← second]
  refine named.mpr ?_
  rw [words]
  decide +kernel

end Command

end TinyForth
