import TinyForth.Proofs.Comments
import TinyForth.Proofs.DeclarationOrder
import TinyForth.Session

/-!
# Compiling stage by stage

A session can do by single steps what the compile command does in one run.  It reads sources one
after the other and strips the comments (`reading`), finds the variables and puts a module
together line by line (`making`), and writes the module to both outputs (`writing`).  Its lists
then hold what the command hands from pass to pass, so the failures of the steps are known
(`failures_stages`), and so are the files that the last step leaves (`getLast?_stages`).

The command has one source file instead, which holds the sources joined by newlines, and reading
that comes to the same words.  It stops at its first failure, while the session goes on.  Only the
two passes over the words can fail, and the first of their failures is the failure of the command
(`ending_compile`).
-/

namespace TinyForth.Session

/-! ## Steps one after the other -/

/-- The session after some steps. -/
def after (s : Session) (steps : List Step) : Session := steps.foldl (fun s st => (s.step st).1) s

/-- The failures of some steps, in the order of the steps. -/
def failures (s : Session) (steps : List Step) : List (Option Failure) :=
  (s.run steps).map Prod.snd

theorem run_append (s : Session) (a b : List Step) :
    s.run (a ++ b) = s.run a ++ (s.after a).run b := by
  induction a generalizing s with
  | nil => rfl
  | cons st a ih =>
      rw [List.cons_append, run, ih, run]
      rfl

theorem after_append (s : Session) (a b : List Step) : s.after (a ++ b) = (s.after a).after b := by
  rw [after, List.foldl_append]
  rfl

theorem failures_append (s : Session) (a b : List Step) :
    s.failures (a ++ b) = s.failures a ++ (s.after a).failures b := by
  rw [failures, run_append, List.map_append]
  rfl

/-! ## Reading -/

/-- The steps that read sources into an empty session and take the comments out. -/
def reading (sources : List Text) : List Step :=
  [.clear [.words, .names, .lines]] ++ sources.map .read ++ [.strip]

/-- The words of the sources outside comments. -/
def wordsOf (sources : List Text) : List Word :=
  Comment.strip (sources.flatMap Compiler.sourceWords)

theorem after_read (s : Session) (sources : List Text) : s.after (sources.map .read) =
    { s with words := s.words ++ sources.flatMap Compiler.sourceWords } := by
  induction sources generalizing s with
  | nil => simp [after]
  | cons source sources ih =>
      have step : s.after ((source :: sources).map .read) =
          after { s with words := s.words ++ Compiler.sourceWords source }
            (sources.map .read) := rfl
      rw [step, ih, List.flatMap_cons, List.append_assoc]

theorem failures_read (s : Session) (sources : List Text) :
    s.failures (sources.map .read) = List.replicate sources.length none := by
  induction sources generalizing s with
  | nil => rfl
  | cons source sources ih =>
      have step : s.failures ((source :: sources).map .read) =
          none :: (s.step (.read source)).1.failures (sources.map .read) := rfl
      rw [step, ih, List.length_cons, List.replicate_succ]

theorem after_reading (s : Session) (sources : List Text) : s.after (reading sources) =
    { s with words := wordsOf sources, names := [], lines := [] } := by
  rw [reading, after_append, after_append, after_read]
  rfl

theorem failures_reading (s : Session) (sources : List Text) :
    s.failures (reading sources) = [none] ++ List.replicate sources.length none ++ [none] := by
  rw [reading, failures_append, failures_append, failures_read]
  rfl

/-! ## Making the module -/

/-- The steps that make a module of the words. -/
def making : List Step := [.findVariables, .openModule, .declare, .generate, .closeModule]

/-- The variables that are found, or none if finding them fails. -/
def namesIn (v : Vocabulary) (ws : List Word) : List Word :=
  (Word.variablesIn v ws).toOption.getD []

/-- Why the variables cannot be found. -/
def namesError? (v : Vocabulary) (ws : List Word) : Option Word.Error :=
  match Word.variablesIn v ws with
  | .error e => some e
  | .ok _ => none

/-- Why the words have no module: the error of the first pass, or else that of the second. -/
def wordError? (v : Vocabulary) (ws : List Word) : Option Word.Error :=
  (namesError? v ws).or (Code.generate v ws).error?

/-- The lines that are made, whether or not all of them could be. -/
def linesOf (v : Vocabulary) (ws : List Word) : List Text :=
  [Wat.opening] ++ (namesIn v ws).map Wat.declaration ++ (Code.generate v ws).lines ++ [Wat.closing]

theorem step_findVariables {s : Session} (fresh : s.names = []) : s.step .findVariables =
    ({ s with names := namesIn s.vocabulary s.words },
      (namesError? s.vocabulary s.words).map .word) := by
  rw [step, namesIn, namesError?]
  cases Word.variablesIn s.vocabulary s.words with
  | error e =>
      rw [← fresh]
      rfl
  | ok names => rfl

theorem after_making {s : Session} (noNames : s.names = []) (noLines : s.lines = []) :
    s.after making =
      { s with names := namesIn s.vocabulary s.words, lines := linesOf s.vocabulary s.words } := by
  rw [making, after, List.foldl_cons, step_findVariables noNames]
  show { s with
    names := namesIn s.vocabulary s.words
    lines := s.lines ++ [Wat.opening] ++ (namesIn s.vocabulary s.words).map Wat.declaration ++
      (Code.generate s.vocabulary s.words).lines ++ [Wat.closing] : Session } = _
  rw [noLines]
  rfl

theorem failures_making {s : Session} (noNames : s.names = []) : s.failures making =
    [(namesError? s.vocabulary s.words).map .word, none, none,
      (Code.generate s.vocabulary s.words).error?.map .word, none] := by
  rw [making, failures, run, step_findVariables noNames]
  rfl

/-! ## Writing the outputs -/

/-- The steps that write the module to both outputs. -/
def writing (name : Text) : List Step := [.writeText name, .writeBinary name]

theorem writeLines_of_target {s : Session} {name ext : Text} {here : Location}
    (opened : s.files.target (name ++ ext) = .ok here) : s.writeLines name ext =
      ({ s with files := s.files.put here (Utf8.encode (Text.ofLines s.lines)) }, none) := by
  rw [writeLines, Command.writeModule_eq, opened]
  rfl

/-- The first output is a sibling of the second, and has no influence on whether that can be
opened. -/
theorem run_writing {s : Session} {name : Text} {here there : Location}
    (opened : s.files.target (name ++ Command.watExtension) = .ok here)
    (opened' : s.files.target (name ++ Command.wasmExtension) = .ok there) :
    let bytes := Utf8.encode (Text.ofLines s.lines)
    s.run (writing name) = [({ s with files := s.files.put here bytes }, none),
      ({ s with files := (s.files.put here bytes).put there bytes }, none)] := by
  intro bytes
  have second : (s.files.put here bytes).target (name ++ Command.wasmExtension) = .ok there := by
    rw [FileTree.target_put_sibling (by decide) (by decide) (by decide) (by decide) opened, opened']
  rw [writing, run, step, writeLines_of_target opened, run, step]
  dsimp only
  rw [writeLines_of_target second]
  rfl

/-! ## All stages -/

/-- The steps that compile sources as if they were one, and write the outputs under a name. -/
def stages (sources : List Text) (name : Text) : List Step :=
  reading sources ++ making ++ writing name

/-- The session that is ready to write its module. -/
def ready (s : Session) (sources : List Text) : Session :=
  { s with
    words := wordsOf sources
    names := namesIn s.vocabulary (wordsOf sources)
    lines := linesOf s.vocabulary (wordsOf sources) }

theorem after_reading_making (s : Session) (sources : List Text) :
    s.after (reading sources ++ making) = s.ready sources := by
  rw [after_append, after_reading, after_making rfl rfl]
  rfl

section

variable {s : Session} {name : Text} {here there : Location}
  (opened : s.files.target (name ++ Command.watExtension) = .ok here)
  (opened' : s.files.target (name ++ Command.wasmExtension) = .ok there) (sources : List Text)

include opened opened'

theorem failures_stages : s.failures (stages sources name) =
    [none] ++ List.replicate sources.length none ++ [none] ++
      [(namesError? s.vocabulary (wordsOf sources)).map .word, none, none,
        (Code.generate s.vocabulary (wordsOf sources)).error?.map .word, none] ++
      [none, none] := by
  have written := run_writing (s := s.ready sources) opened opened'
  rw [stages, failures_append, failures_append, failures_reading, after_reading_making,
    after_reading, failures_making rfl, failures, written]
  rfl

theorem getLast?_stages : ∃ last, (s.run (stages sources name)).getLast? = some (last, none) ∧
    let bytes := Utf8.encode (Text.ofLines (linesOf s.vocabulary (wordsOf sources)))
    last.files = (s.files.put here bytes).put there bytes := by
  have written := run_writing (s := s.ready sources) opened opened'
  rw [stages, run_append, after_reading_making, written, List.getLast?_append]
  exact ⟨_, rfl, rfl⟩

/-- Of all the stages, only the two passes over the words can fail. -/
theorem failing_stages {st : Step} {f : Failure}
    (failed : (st, some f) ∈ (stages sources name).zip (s.failures (stages sources name))) :
    st = .findVariables ∨ st = .generate := by
  rw [failures_stages opened opened', stages, List.zip_append (by simp [reading, making]),
    List.zip_append (by simp [reading]), List.mem_append, List.mem_append] at failed
  rcases failed with (read | made) | written
  · have failure := (List.of_mem_zip read).2
    simp at failure
  · -- Only the first and the fourth of these steps stand beside a failure that is not `none`.
    simp only [making, List.zip_cons_cons, List.zip_nil_left, List.mem_cons, Prod.mk.injEq] at made
    rcases made with ⟨rfl, _⟩ | ⟨_, none⟩ | ⟨_, none⟩ | ⟨rfl, _⟩ | ⟨_, none⟩ | none
    · exact .inl rfl
    · cases none
    · cases none
    · exact .inr rfl
    · cases none
    · cases none
  · have failure := (List.of_mem_zip written).2
    simp at failure

theorem findSome?_failures_stages : (s.failures (stages sources name)).findSome? id =
    (wordError? s.vocabulary (wordsOf sources)).map .word := by
  rw [failures_stages opened opened', wordError?]
  simp only [List.findSome?_append, List.findSome?_replicate_of_isNone, id_eq, Option.isNone_none,
    List.findSome?_cons, List.findSome?_nil, Option.none_or]
  cases namesError? s.vocabulary (wordsOf sources) with
  | some e => rfl
  | none => cases (Code.generate s.vocabulary (wordsOf sources)).error? <;> rfl

end

/-! ## The command on the joined sources -/

theorem compileWords_eq (v : Vocabulary) (ws : List Word) : Compiler.compileWords v ws =
    match wordError? v ws with
    | some e => .error e
    | none => .ok (Text.ofLines (linesOf v ws)) := by
  rw [Compiler.compileWords, wordError?, namesError?, linesOf, namesIn]
  cases Word.variablesIn v ws with
  | error e => rfl
  | ok names =>
      cases Code.generate v ws with
      | mk lines error? => cases error? <;> rfl

theorem compile_ofLines (sources : List Text) : Compiler.compile (Text.ofLines sources) =
    match wordError? .standard (wordsOf sources) with
    | some e => .error e
    | none => .ok (Text.ofLines (linesOf .standard (wordsOf sources))) := by
  rw [Compiler.compile, Compiler.sourceWords_ofLines, ← wordsOf, compileWords_eq]

theorem root_source {name : Text}
    (proper : ∃ last, (FileName.parts name).getLast? = some last ∧ ∃ c ∈ last, c ≠ '.') :
    FileName.root (name ++ ".4th".toList) = name := by
  obtain ⟨last, found, other⟩ := proper
  exact FileName.root_append found other (Text.forall_mem_of_all (by decide))

/-- The command finds the name of its outputs again, and writing the source beside them does not
matter to whether they can be opened. -/
theorem target_beside_source {files tree : FileTree} {name ext : Text} {bytes : List UInt8}
    (proper : ∃ last, (FileName.parts name).getLast? = some last ∧ ∃ c ∈ last, c ≠ '.')
    (source : files.write (name ++ ".4th".toList) bytes = .ok tree) (noSlash : '/' ∉ ext)
    (ne : ".4th".toList ≠ ext) :
    tree.target (FileName.root (name ++ ".4th".toList) ++ ext) = files.target (name ++ ext) := by
  rw [root_source proper,
    FileTree.target_of_write_sibling (by decide) noSlash (by decide) ne source]

/-- The command fails as the first of the two passes that fails, and is done if neither does. -/
theorem ending_compile {tree : FileTree} {command name : Text} {here there : Location}
    {sources : List Text} (readable : tree.read name = .ok (Utf8.encode (Text.ofLines sources)))
    (opened : tree.target (FileName.root name ++ Command.watExtension) = .ok here)
    (opened' : tree.target (FileName.root name ++ Command.wasmExtension) = .ok there) :
    (Command.compile tree [command, name]).ending =
      ((wordError? .standard (wordsOf sources)).map .word).elim .done .failed := by
  have outcome := compile_ofLines sources
  cases failed : wordError? .standard (wordsOf sources) with
  | some e =>
      rw [failed] at outcome
      rw [Command.compile_of_error readable outcome]
      rfl
  | none =>
      rw [failed] at outcome
      rw [Command.compile_of_targets readable outcome opened opened']
      rfl

/-- Compiling stage by stage agrees with the compile command.  A session in the language's own
vocabulary reads some sources, makes a module and writes it under a name.  The command compiles
one file beside these outputs, which holds the sources joined by newlines.  If no step fails, the
outputs of the two hold the same text, and this is what the module comes to with its declarations
sorted, in whatever order the variables are declared.  Only finding the variables and generating
the code can fail, and the command fails exactly if one of them does, in the way of the first.  Both
have the standard toolchain, so the second output holds the text too and cannot fail to be made. -/
theorem stages_agree_with_command (s : Session) (sources : List Text) (name command : Text)
    (tree : FileTree) (standard : s.vocabulary = .standard)
    (proper : ∃ last, (FileName.parts name).getLast? = some last ∧ ∃ c ∈ last, c ≠ '.')
    (source : s.files.write (name ++ ".4th".toList) (Utf8.encode (Text.ofLines sources)) = .ok tree)
    (wat : s.files.Writable (name ++ ".wat".toList))
    (wasm : s.files.Writable (name ++ ".wasm".toList)) :
    let steps := [.clear [.words, .names, .lines]] ++ sources.map .read ++
      [.strip, .findVariables, .openModule, .declare, .generate, .closeModule, .writeText name,
        .writeBinary name]
    let failures := (s.run steps).map Prod.snd
    let compiled := Command.compile tree [command, name ++ ".4th".toList]
    ((∀ f ∈ failures, f = none) →
      ∃ last names lines,
        let module := fun order : List Word => Text.ofLines
          ([Wat.opening] ++ order.map Wat.declaration ++ lines ++ [Wat.closing])
        (s.run steps).getLast? = some (last, none) ∧
        Word.variablesIn .standard (Comment.strip (Compiler.sourceWords (Text.ofLines sources))) =
          .ok names ∧
        (∀ ext ∈ [".wat".toList, ".wasm".toList],
          last.files.read (name ++ ext) = .ok (Utf8.encode (module names)) ∧
            compiled.tree.read (name ++ ext) = .ok (Utf8.encode (module names))) ∧
        ∀ order, order.Perm names → Wat.sortDeclarations (module order) = module names) ∧
    (∀ st f, (st, some f) ∈ steps.zip failures → st = .findVariables ∨ st = .generate) ∧
    compiled.ending = (failures.findSome? id).elim .done .failed := by
  intro steps failures compiled
  have stepwise : steps = stages sources name := by simp [steps, stages, reading, making, writing]
  obtain ⟨here, opened⟩ := FileTree.writable_iff.mp wat
  obtain ⟨there, opened'⟩ := FileTree.writable_iff.mp wasm
  have readable := FileTree.read_of_write source
  have ready := (target_beside_source proper source (by decide) (by decide)).trans opened
  have ready' := (target_beside_source proper source (by decide) (by decide)).trans opened'
  have first := findSome?_failures_stages opened opened' sources
  rw [standard] at first
  have listed : failures = s.failures (stages sources name) := by rw [← stepwise]; rfl
  refine ⟨?_, ?_, ?_⟩
  · intro none
    have accepted : wordError? .standard (wordsOf sources) = .none := by
      have noFailure : failures.findSome? id = .none := List.findSome?_eq_none_iff.mpr none
      rw [listed, first] at noFailure
      exact Option.map_eq_none_iff.mp noFailure
    have outcome := compile_ofLines sources
    rw [accepted] at outcome
    obtain ⟨final, ended, files⟩ := getLast?_stages opened opened' sources
    obtain ⟨names, lines, declared, text, sorted⟩ := Compiler.sortDeclarations_of_compile outcome
    refine ⟨final, names, lines, stepwise ▸ ended, declared, fun ext mem => ⟨?_, ?_⟩, sorted⟩
    · rw [files, standard, text]
      exact Command.read_outputs opened opened' _ ext mem
    · have outputs := Command.read_outputs ready ready'
      rw [root_source proper] at outputs
      simp only [compiled]
      rw [Command.compile_of_targets readable outcome ready ready', text]
      exact outputs _ ext mem
  · intro st f failed
    rw [listed, stepwise] at failed
    exact failing_stages opened opened' sources failed
  · rw [listed, first]
    exact ending_compile readable ready ready'

/-- A comment that is opened in one source and closed in the next, with a line end in it, does not
disturb the variables around it.  A word that is unknown and a mark that stands alone fail one
pass each, and the command fails as the first pass does, although the unknown word comes first. -/
theorem stages_of_two_sources :
    let s : Session :=
      { words := ["old".toList], names := ["old".toList], lines := ["left".toList] }
    let accepted := ["b! ( one\r".toList, "two ) a! b".toList]
    let rejected := ["? b".toList, "!".toList]
    let written := fun sources : List Text =>
      s.files.write "p.4th".toList (Utf8.encode (Text.ofLines sources))
    (∃ tree last text, written accepted = .ok tree ∧
      (∀ f ∈ s.failures (stages accepted "p".toList), f = none) ∧
      (s.run (stages accepted "p".toList)).getLast? = some (last, none) ∧
      last.files.read "p.wasm".toList = .ok text ∧
      (Command.compile tree ["forth".toList, "p.4th".toList]).tree.read "p.wasm".toList =
        .ok text) ∧
    ∃ tree, written rejected = .ok tree ∧
      s.failures (stages rejected "p".toList) =
        [none, none, none, none, some (.word .empty), none, none,
          some (.word (.unknown "?".toList)), none, none, none] ∧
      (Command.compile tree ["forth".toList, "p.4th".toList]).ending = .failed (.word .empty) := by
  intro s accepted rejected written
  have proper : ∃ last, (FileName.parts "p".toList).getLast? = some last ∧ ∃ c ∈ last, c ≠ '.' :=
    ⟨"p".toList, rfl, 'p', by decide, by decide⟩
  have wat : s.files.Writable "p.wat".toList := ⟨[], _, rfl⟩
  have wasm : s.files.Writable "p.wasm".toList := ⟨[], _, rfl⟩
  constructor
  · obtain ⟨tree, source⟩ : ∃ tree, written accepted = .ok tree := ⟨_, rfl⟩
    have none : ∀ f ∈ s.failures (stages accepted "p".toList), f = none := by decide +kernel
    obtain ⟨agree, _, _⟩ := stages_agree_with_command s accepted "p".toList "forth".toList tree rfl
      proper source wat wasm
    obtain ⟨last, names, lines, ended, _, outputs, _⟩ := agree none
    obtain ⟨text, text'⟩ := outputs ".wasm".toList (by simp)
    exact ⟨tree, last, _, source, none, ended, text, text'⟩
  · obtain ⟨tree, source⟩ : ∃ tree, written rejected = .ok tree := ⟨_, rfl⟩
    have failed : s.failures (stages rejected "p".toList) =
        [none, none, none, none, some (.word .empty), none, none,
          some (.word (.unknown "?".toList)), none, none, none] := by decide +kernel
    obtain ⟨_, _, ending⟩ := stages_agree_with_command s rejected "p".toList "forth".toList tree rfl
      proper source wat wasm
    have first : (s.failures (stages rejected "p".toList)).findSome? id = some (.word .empty) := by
      rw [failed]
      rfl
    exact ⟨tree, source, failed, ending.trans (first ▸ rfl)⟩

end TinyForth.Session
