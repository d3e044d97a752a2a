import TinyForth.Proofs.Acceptance
import TinyForth.Proofs.FileTree
import TinyForth.Proofs.Words

/-!
# What a compilation does to the files

A run of the compile command stops early, before anything is written, or it writes the text
of the module to its first output.  `StopsEarly` lists the five ways of the first kind.
Whether the second output can be opened is settled by the tree from before the run, since
the first output is a sibling of it (`writeOutputs_eq`).  `Ends` lists how a run can end, with
any toolchain.  With the standard one a module always has bytes, so only one failure leaves the
tree changed, and the change is then a complete first output.

The source is one of the files written exactly if it has the extension of an output.  Its
content is then lost, since no module is a source that the compiler accepts.
-/

namespace TinyForth

/-! ## A module is not a source -/

namespace Compiler

theorem sourceWords_of_heading (t : Text) :
    sourceWords (";; ".toList ++ t) = ";;".toList :: sourceWords t :=
  Text.words_append_blank (w := ";;".toList) (by decide) (Text.forall_mem_of_all (by decide))
    (b := ' ') (by decide) _

theorem heading_isPrefix_of_compile {source module : Text} (h : compile source = .ok module) :
    ";; ".toList <+: module := by
  obtain ⟨names, ts, _, _, text⟩ := translations_of_compileWords h
  have heading : ";; ".toList <+: Wat.opening :=
    List.IsPrefix.trans ⟨"chiqui_forth compiler WAT output".toList, by simp⟩
      (Text.line_isPrefix_ofLines ..)
  rw [text, List.append_assoc, List.append_assoc, List.singleton_append]
  exact heading.trans (Text.line_isPrefix_ofLines ..)

theorem mark_not_mem_of_compile {source module : Text} (h : compile source = .ok module) :
    '!' ∉ module := by
  obtain ⟨names, ts, found, translated, rfl⟩ := translations_of_compileWords h
  have opening : '!' ∉ Wat.opening := Text.not_mem_ofLines (by decide) (by simp)
  have closing : '!' ∉ Wat.closing := Text.not_mem_ofLines (by decide) (by simp)
  refine Text.not_mem_ofLines (by decide) ?_
  simp only [List.forall_mem_append, List.forall_mem_map, List.forall_mem_singleton]
  refine ⟨⟨⟨opening, ?_⟩, ?_⟩, closing⟩
  · intro x mem
    have shape := (Word.isVariable_eq_true_iff.mp ((Word.mem_of_variablesIn found).mp mem).1).1
    simp [Wat.declaration, Wat.line, Word.mark_not_mem_of_hasNameShape shape]
  · exact Wat.forall_mem_flatten_of_translates translated fun _ _ _ hw =>
      Wat.mark_not_mem_of_translates hw

/-- The heading of a module begins with a word outside the grammar, and no mark stands alone
anywhere in it, so that word is what the compiler names. -/
theorem compile_module {source module : Text} (h : compile source = .ok module) :
    compile module = .error (.unknown ";;".toList) := by
  have noMark := mark_not_mem_of_compile h
  obtain ⟨rest, rfl⟩ := heading_isPrefix_of_compile h
  have words : Comment.strip (sourceWords (";; ".toList ++ rest)) =
      ";;".toList :: Comment.strip (sourceWords rest) := by
    rw [sourceWords_of_heading]
    rfl
  have named : ∀ w ∈ Comment.strip (sourceWords (";; ".toList ++ rest)), Word.name w ≠ [] := by
    intro w mem noName
    have inWords := Comment.mem_of_mem_strip mem
    rcases Word.name_eq_nil_iff.mp noName with rfl | rfl
    · exact Text.ne_nil_of_mem_words inWords rfl
    · have inText := Text.mem_of_mem_words inWords '!' (List.mem_singleton.mpr rfl)
      rcases Text.mem_of_mem_unifyLineEnds inText with newline | mark
      · cases newline
      · exact noMark mark
  refine compileWords_of_error (Word.variablesIn_of_names named) ?_
  have unknown : Word.meaning .standard ";;".toList = .error (.unknown ";;".toList) := by
    decide +kernel
  rw [words, Code.generate_cons_of_error unknown]

end Compiler

namespace Command

open FileTree (SameDirectories)

/-! ## Runs that write nothing -/

section

variable {tools : Toolchain}

theorem compile_of_length {tree : FileTree} {args : List Text} (h : args.length ≠ 2) :
    compile tree args tools = { tree, ending := .refused compileUsage } := by
  have refused : argument compileUsage args = .error (.refused compileUsage) := by
    unfold argument
    split
    next => exact absurd rfl h
    next => rfl
  rw [compile, compileSource, refused]
  rfl

/-- The ending of a run whose source cannot be opened. -/
def endingOfUnread (e : FileTree.Error) : Ending :=
  if e.problem = .missing then .refused (notFound e.name) else .failed (.file e)

theorem endingOfUnread_ne_done (e : FileTree.Error) : endingOfUnread e ≠ .done := by
  unfold endingOfUnread
  split <;> simp

theorem compile_of_unreadable {tree : FileTree} {command name : Text} {e : FileTree.Error}
    (unreadable : tree.read name = .error e) :
    compile tree [command, name] tools = { tree, ending := endingOfUnread e } := by
  have unread : readSource tree [command, name] name = .error (endingOfUnread e) := by
    obtain ⟨problem, same⟩ := e
    obtain rfl : same = name := FileTree.name_of_read_error unreadable
    simp only [readSource, List.getElem?_cons_succ, List.getElem?_cons_zero, unreadable]
    cases problem <;> rfl
  simp only [compile, compileSource, argument, bind, Except.bind, unread]

theorem compile_of_undecodable {tree : FileTree} {command name : Text} {bytes : List UInt8}
    {fault : Utf8.Fault} (readable : tree.read name = .ok bytes)
    (undecodable : Utf8.decode bytes = .error fault) :
    compile tree [command, name] tools = { tree, ending := .failed (.encoding fault) } := by
  have unread : readSource tree [command, name] name = .error (.failed (.encoding fault)) :=
    readSource_of_fault rfl readable undecodable name
  simp only [compile, compileSource, argument, bind, Except.bind, unread]

end

/-! ## Writing the outputs -/

theorem Format.content_text (module : Text) : text.content module = Utf8.encode module := rfl

theorem Format.failure?_text (module : Text) : text.failure? module = none := rfl

theorem writeModule_eq (tree : FileTree) (name ext module : Text) (format : Format) :
    writeModule tree name ext module format =
      match tree.target (name ++ ext) with
      | .error e => (tree, some (.file e))
      | .ok here => (tree.put here (format.content module), format.failure? module) := by
  rw [writeModule, FileTree.write_eq]
  cases tree.target (name ++ ext) with
  | error e => rfl
  | ok here => rfl

/-- What can be opened for writing is settled by the tree from before the run. -/
theorem writeOutputs_eq (tree : FileTree) (root module : Text) (binary : Format) :
    writeOutputs tree root module binary =
      match tree.target (root ++ watExtension) with
      | .error e => { tree, ending := .failed (.file e) }
      | .ok here =>
          match tree.target (root ++ wasmExtension) with
          | .error e =>
              { tree := tree.put here (Utf8.encode module), ending := .failed (.file e) }
          | .ok there =>
              { tree := (tree.put here (Utf8.encode module)).put there (binary.content module),
                ending := (binary.failure? module).elim .done .failed } := by
  rw [writeOutputs, writeModule_eq]
  cases opened : tree.target (root ++ watExtension) with
  | error e => rfl
  | ok here =>
      rw [Format.content_text, Format.failure?_text]
      dsimp only
      rw [writeModule_eq, FileTree.target_put_sibling (by decide) (by decide) (by decide)
        (by decide) opened]
      cases tree.target (root ++ wasmExtension) with
      | error e => rfl
      | ok there => rfl

/-- A source that is accepted is compiled into both outputs, if both can be opened. -/
theorem compile_of_targets {tree : FileTree} {command name source module : Text}
    {here there : Location} (readable : tree.read name = .ok (Utf8.encode source))
    (compiled : Compiler.compile source = .ok module)
    (opened : tree.target (FileName.root name ++ watExtension) = .ok here)
    (opened' : tree.target (FileName.root name ++ wasmExtension) = .ok there) :
    compile tree [command, name] =
      { tree := (tree.put here (Utf8.encode module)).put there (Utf8.encode module),
        ending := .done } := by
  rw [compile_of_module readable compiled, writeOutputs_eq, opened, opened']
  rfl

/-- Each output is read back as what is written to both. -/
theorem read_outputs {tree : FileTree} {root : Text} {here there : Location}
    (opened : tree.target (root ++ watExtension) = .ok here)
    (opened' : tree.target (root ++ wasmExtension) = .ok there) (bytes : List UInt8) :
    ∀ ext ∈ [watExtension, wasmExtension],
      ((tree.put here bytes).put there bytes).read (root ++ ext) = .ok bytes := by
  obtain ⟨resolved, free⟩ := FileTree.target_eq_ok_iff.mp opened
  obtain ⟨resolved', free'⟩ := FileTree.target_eq_ok_iff.mp opened'
  intro ext mem
  rcases List.mem_pair.mp mem with rfl | rfl
  · exact FileTree.read_put_put free free' resolved (.inl rfl) bytes
  · exact FileTree.read_put_put free free' resolved' (.inr rfl) bytes

/-! ## The whole run -/

/-- The source of a run is read, decoded and compiled, so the outputs are next. -/
structure Ready (tree : FileTree) (name : Text) (bytes : List UInt8) (source module : Text)
    (listing : Word.Listing := .ascending) : Prop where
  readable : tree.read name = .ok bytes
  decoded : Utf8.decode bytes = .ok source
  compiled : Compiler.compile source listing = .ok module

/-- A run on given arguments ends in a given way. -/
inductive Ends (tools : Toolchain) (tree : FileTree) : List Text → Compilation → Prop where
  /-- The number of arguments is wrong. -/
  | usage {args : List Text} (wrong : args.length ≠ 2) :
      Ends tools tree args { tree, ending := .refused compileUsage }
  /-- The source cannot be opened. -/
  | unreadable {command name : Text} {e : FileTree.Error} (unread : tree.read name = .error e) :
      Ends tools tree [command, name] { tree, ending := endingOfUnread e }
  /-- The source is not UTF-8. -/
  | undecodable {command name : Text} {bytes : List UInt8} {fault : Utf8.Fault}
      (readable : tree.read name = .ok bytes) (undecoded : Utf8.decode bytes = .error fault) :
      Ends tools tree [command, name] { tree, ending := .failed (.encoding fault) }
  /-- A word of the source is rejected. -/
  | rejected {command name source : Text} {bytes : List UInt8} {e : Word.Error}
      (readable : tree.read name = .ok bytes) (decoded : Utf8.decode bytes = .ok source)
      (rejection : Compiler.compile source tools.listing = .error e) :
      Ends tools tree [command, name] { tree, ending := .failed (.word e) }
  /-- The first output cannot be opened. -/
  | unwritable {command name : Text} {bytes : List UInt8} {source module : Text}
      {e : FileTree.Error} (ready : Ready tree name bytes source module tools.listing)
      (unopened : tree.target (FileName.root name ++ watExtension) = .error e) :
      Ends tools tree [command, name] { tree, ending := .failed (.file e) }
  /-- The second output cannot be opened. -/
  | halfway {command name : Text} {bytes : List UInt8} {source module : Text} {here : Location}
      {e : FileTree.Error} (ready : Ready tree name bytes source module tools.listing)
      (opened : tree.target (FileName.root name ++ watExtension) = .ok here)
      (unopened : tree.target (FileName.root name ++ wasmExtension) = .error e) :
      Ends tools tree [command, name]
        { tree := tree.put here (Utf8.encode module), ending := .failed (.file e) }
  /-- Both outputs are opened, and the run is done if the module has a binary format. -/
  | opened {command name : Text} {bytes : List UInt8} {source module : Text}
      {here there : Location} (ready : Ready tree name bytes source module tools.listing)
      (opened : tree.target (FileName.root name ++ watExtension) = .ok here)
      (opened' : tree.target (FileName.root name ++ wasmExtension) = .ok there) :
      Ends tools tree [command, name]
        { tree := (tree.put here (Utf8.encode module)).put there (tools.binary.content module),
          ending := (tools.binary.failure? module).elim .done .failed }

theorem Ready.text_ne {tree : FileTree} {name : Text} {bytes : List UInt8} {source module : Text}
    (ready : Ready tree name bytes source module) : Utf8.encode module ≠ bytes := by
  rintro rfl
  obtain rfl : module = source :=
    Except.ok.inj ((Utf8.decode_encode module).symm.trans ready.decoded)
  have compiled := ready.compiled
  rw [Compiler.compile_module ready.compiled] at compiled
  cases compiled

theorem compile_ends (tree : FileTree) (args : List Text) (tools : Toolchain) :
    Ends tools tree args (compile tree args tools) := by
  by_cases wrong : args.length ≠ 2
  · rw [compile_of_length wrong]
    exact .usage wrong
  obtain ⟨command, name, rfl⟩ := List.length_eq_two.mp (not_not.mp wrong)
  cases readable : tree.read name with
  | error e =>
      rw [compile_of_unreadable readable]
      exact .unreadable readable
  | ok bytes =>
      cases decoded : Utf8.decode bytes with
      | error fault =>
          rw [compile_of_undecodable readable decoded]
          exact .undecodable readable decoded
      | ok source =>
          rw [compile_of_decode readable decoded]
          cases compiled : Compiler.compile source tools.listing with
          | error e => exact .rejected readable decoded compiled
          | ok module =>
              have ready : Ready tree name bytes source module tools.listing :=
                ⟨readable, decoded, compiled⟩
              dsimp only
              rw [writeOutputs_eq]
              cases opened : tree.target (FileName.root name ++ watExtension) with
              | error e => exact .unwritable ready opened
              | ok here =>
                  cases opened' : tree.target (FileName.root name ++ wasmExtension) with
                  | error e => exact .halfway ready opened opened'
                  | ok there => exact .opened ready opened opened'

/-- The ways in which a run comes to an end before it writes anything. -/
inductive StopsEarly (tree : FileTree) : List Text → Prop where
  /-- The number of arguments is wrong. -/
  | arguments {args : List Text} : args.length ≠ 2 → StopsEarly tree args
  /-- The source cannot be opened. -/
  | unreadable {command name : Text} {e : FileTree.Error} :
      tree.read name = .error e → StopsEarly tree [command, name]
  /-- The source is not UTF-8. -/
  | undecodable {command name : Text} {bytes : List UInt8} {fault : Utf8.Fault} :
      tree.read name = .ok bytes → Utf8.decode bytes = .error fault →
        StopsEarly tree [command, name]
  /-- A word of the source is rejected. -/
  | rejected {command name source : Text} {bytes : List UInt8} {e : Word.Error} :
      tree.read name = .ok bytes → Utf8.decode bytes = .ok source →
        Compiler.compile source = .error e → StopsEarly tree [command, name]
  /-- The first output cannot be opened. -/
  | unwritable {command name : Text} {bytes : List UInt8} {e : FileTree.Error} :
      tree.write (FileName.root name ++ watExtension) bytes = .error e →
        StopsEarly tree [command, name]

theorem stopsEarly_of_target {tree : FileTree} {command name : Text} {e : FileTree.Error}
    (unopened : tree.target (FileName.root name ++ watExtension) = .error e) :
    StopsEarly tree [command, name] := by
  have unwritable : tree.write (FileName.root name ++ watExtension) [] = .error e := by
    rw [FileTree.write_eq, unopened]
    rfl
  exact .unwritable unwritable

theorem not_stopsEarly {tree : FileTree} {command name : Text} {bytes : List UInt8}
    {source module : Text} {here : Location} (ready : Ready tree name bytes source module)
    (opened : tree.target (FileName.root name ++ watExtension) = .ok here) :
    ¬ StopsEarly tree [command, name] := by
  obtain ⟨readable, decoded, compiled⟩ := ready
  intro h
  cases h with
  | arguments wrong => exact wrong rfl
  | unreadable unread =>
      rw [readable] at unread
      cases unread
  | undecodable readable' undecoded =>
      cases readable.symm.trans readable'
      rw [decoded] at undecoded
      cases undecoded
  | rejected readable' decoded' rejection =>
      cases readable.symm.trans readable'
      cases decoded.symm.trans decoded'
      rw [compiled] at rejection
      cases rejection
  | unwritable unopened =>
      rw [FileTree.write_eq, opened] at unopened
      cases unopened

theorem compile_of_stopsEarly {tree : FileTree} {args : List Text} (h : StopsEarly tree args) :
    (compile tree args).tree = tree ∧ (compile tree args).ending ≠ .done := by
  have ends := compile_ends tree args .standard
  generalize compile tree args = run at ends
  cases ends with
  | usage _ => exact ⟨rfl, by simp⟩
  | unreadable _ => exact ⟨rfl, endingOfUnread_ne_done _⟩
  | undecodable _ _ => exact ⟨rfl, by simp⟩
  | rejected _ _ _ => exact ⟨rfl, by simp⟩
  | unwritable _ _ => exact ⟨rfl, by simp⟩
  | halfway ready opened _ => exact absurd h (not_stopsEarly ready opened)
  | opened ready opened _ => exact absurd h (not_stopsEarly ready opened)

theorem stdout_compile (tree : FileTree) (args : List Text) : (compile tree args).stdout = [] := by
  have ends := compile_ends tree args .standard
  generalize compile tree args = run at ends
  cases ends <;> rfl

theorem sameDirectories_compile (tree : FileTree) (args : List Text) (tools : Toolchain) :
    SameDirectories tree (compile tree args tools).tree := by
  have ends := compile_ends tree args tools
  generalize compile tree args tools = run at ends
  cases ends with
  | usage _ => exact .refl tree
  | unreadable _ => exact .refl tree
  | undecodable _ _ => exact .refl tree
  | rejected _ _ _ => exact .refl tree
  | unwritable _ _ => exact .refl tree
  | halfway _ opened _ =>
      exact FileTree.sameDirectories_put (FileTree.target_eq_ok_iff.mp opened).2 _
  | opened _ opened opened' =>
      exact FileTree.sameDirectories_put_put (FileTree.target_eq_ok_iff.mp opened).2
        (FileTree.target_eq_ok_iff.mp opened').2 _ _

theorem notFound_ne_compileUsage (name : Text) : notFound name ≠ compileUsage := by
  unfold notFound
  intro same
  have first : "Oops! File not found: ".toList.take 1 = compileUsage.take 1 := by
    rw [← same, List.take_append_of_le_length (by decide)]
  exact absurd first (by decide)

theorem ending_eq_notFound_iff {tree : FileTree} {args : List Text} {name : Text} :
    (compile tree args).ending = .refused (notFound name) ↔
      ∃ command, args = [command, name] ∧ tree.read name = .error ⟨.missing, name⟩ := by
  constructor
  · have ends := compile_ends tree args .standard
    generalize compile tree args = run at ends
    intro h
    cases ends with
    | usage _ => exact absurd (Ending.refused.inj h).symm (notFound_ne_compileUsage name)
    | @unreadable command name' e unread =>
        obtain ⟨problem, same⟩ := e
        obtain rfl : same = name' := FileTree.name_of_read_error unread
        dsimp only [endingOfUnread] at h
        split at h
        next missing =>
          obtain rfl : same = name := List.append_cancel_left (Ending.refused.inj h)
          rw [missing] at unread
          exact ⟨command, rfl, unread⟩
        next => cases h
    | undecodable _ _ => cases h
    | rejected _ _ _ => cases h
    | unwritable _ _ => cases h
    | halfway _ _ _ => cases h
    | opened _ _ _ => cases h
  · rintro ⟨command, rfl, unread⟩
    rw [compile_of_unreadable unread]
    rfl

/-- A source is one of its outputs exactly if it has that output's extension. -/
theorem source_is_output_iff {tree : FileTree} {name : Text} {own here there : Location}
    (found : tree.resolve name = .ok own)
    (first : tree.resolve (FileName.root name ++ watExtension) = .ok here)
    (second : tree.resolve (FileName.root name ++ wasmExtension) = .ok there) :
    (own = here ↔ FileName.extension name = watExtension) ∧
      (own = there ↔ FileName.extension name = wasmExtension) := by
  have noSlash := FileName.slash_not_mem_extension name
  rw [← FileName.root_append_extension name] at found
  exact ⟨FileTree.sibling_eq_iff noSlash (by decide) (by decide) found first,
    FileTree.sibling_eq_iff noSlash (by decide) (by decide) found second⟩

/-- Writing the outputs changes the source exactly if it is one of them. -/
theorem Ready.read_ne_iff {tree : FileTree} {name : Text} {bytes : List UInt8}
    {source module : Text} {own here there : Location}
    (ready : Ready tree name bytes source module) (found : tree.resolve name = .ok own)
    (free : tree.node? here ≠ some .directory) (free' : tree.node? there ≠ some .directory) :
    ((tree.put here (Utf8.encode module)).put there (Utf8.encode module)).read name ≠ .ok bytes ↔
      own = here ∨ own = there := by
  constructor
  · intro changed
    by_contra kept
    obtain ⟨own', found', holds⟩ := FileTree.read_eq_ok_iff.mp ready.readable
    obtain rfl : own = own' := Except.ok.inj (found.symm.trans found')
    have same := FileTree.sameDirectories_put_put free free' (Utf8.encode module)
      (Utf8.encode module)
    refine changed (FileTree.read_of_sameDirectories same found ?_)
    rw [FileTree.node?_put_put free free', if_neg kept, holds]
  · intro lost
    rw [FileTree.read_put_put free free' found lost]
    exact fun kept => ready.text_ne (Except.ok.inj kept)

/-- The effect of a run on the files.  Nothing is printed and the directories stay as they are.
The notice about a missing source is given exactly if opening the source fails that way.  A run
that stops early leaves the tree alone.  Any other run has a module, and its text is then all
that the first output holds.  If the second output cannot be opened in the tree as it was, the
run fails with that error and nothing else has changed.  If it can, the run is done, both
outputs hold the text, and nothing else has changed.  The source is the first or the second
output exactly if it has that extension, and these are the only runs that change the source. -/
theorem compile_changes_outputs_only (tree : FileTree) (args : List Text) :
    let run := compile tree args
    run.stdout = [] ∧
    (∀ here, run.tree.node? here = some .directory ↔ tree.node? here = some .directory) ∧
    (∀ name, run.ending = .refused (notFound name) ↔
      ∃ command, args = [command, name] ∧ tree.read name = .error ⟨.missing, name⟩) ∧
    (StopsEarly tree args → run.tree = tree ∧ run.ending ≠ .done) ∧
    (¬ StopsEarly tree args → ∃ command name bytes source module here,
      let wat := FileName.root name ++ watExtension
      let wasm := FileName.root name ++ wasmExtension
      let text := Utf8.encode module
      args = [command, name] ∧ tree.read name = .ok bytes ∧ Utf8.decode bytes = .ok source ∧
      Compiler.compile source = .ok module ∧ tree.resolve wat = .ok here ∧
      (∀ e, tree.write wasm text = .error e →
        run.ending = .failed (.file e) ∧ run.tree.read wat = .ok text ∧
        ∀ other, run.tree[other]? = if other = here then some (.file text) else tree[other]?) ∧
      (∀ written, tree.write wasm text = .ok written →
        run.ending = .done ∧ run.tree.read wat = .ok text ∧ run.tree.read wasm = .ok text ∧
        ∃ there own, tree.resolve wasm = .ok there ∧ tree.resolve name = .ok own ∧
          (∀ other, run.tree[other]? =
            if other = here ∨ other = there then some (.file text) else tree[other]?) ∧
          (own = here ↔ FileName.extension name = watExtension) ∧
          (own = there ↔ FileName.extension name = wasmExtension) ∧
          (run.tree.read name ≠ .ok bytes ↔
            FileName.extension name = watExtension ∨
              FileName.extension name = wasmExtension))) := by
  intro run
  refine ⟨stdout_compile tree args,
    fun here => (sameDirectories_compile tree args .standard here).symm,
    fun _ => ending_eq_notFound_iff, compile_of_stopsEarly, ?_⟩
  intro reaches
  have ends : Ends .standard tree args run := compile_ends tree args .standard
  clear_value run
  cases ends with
  | usage wrong => exact absurd (.arguments wrong) reaches
  | unreadable unread => exact absurd (.unreadable unread) reaches
  | undecodable readable undecoded => exact absurd (.undecodable readable undecoded) reaches
  | rejected readable decoded rejection =>
      exact absurd (.rejected readable decoded rejection) reaches
  | unwritable _ unopened => exact absurd (stopsEarly_of_target unopened) reaches
  | @halfway command name bytes source module here e ready opened unopened =>
      have resolved := (FileTree.target_eq_ok_iff.mp opened).1
      refine ⟨command, name, bytes, source, module, here, rfl, ready.readable, ready.decoded,
        ready.compiled, resolved, ?_, ?_⟩
      · intro e' failed
        rw [FileTree.write_eq, unopened] at failed
        cases failed
        exact ⟨rfl, FileTree.read_put opened _, fun other => FileTree.getElem?_put ..⟩
      · intro written succeeded
        rw [FileTree.write_eq, unopened] at succeeded
        cases succeeded
  | @opened command name bytes source module here there ready opened opened' =>
      obtain ⟨resolved, free⟩ := FileTree.target_eq_ok_iff.mp opened
      obtain ⟨resolved', free'⟩ := FileTree.target_eq_ok_iff.mp opened'
      refine ⟨command, name, bytes, source, module, here, rfl, ready.readable, ready.decoded,
        ready.compiled, resolved, ?_, ?_⟩
      · intro e' failed
        rw [FileTree.write_eq, opened'] at failed
        cases failed
      · intro written _
        obtain ⟨own, found, _⟩ := FileTree.read_eq_ok_iff.mp ready.readable
        have ⟨first, second⟩ := source_is_output_iff found resolved resolved'
        refine ⟨rfl, FileTree.read_put_put free free' resolved (.inl rfl) _,
          FileTree.read_put_put free free' resolved' (.inr rfl) _, there, own, resolved', found,
          fun other => FileTree.getElem?_put_put .., first, second, ?_⟩
        rw [← first, ← second]
        exact ready.read_ne_iff found free free'

/-- The source `7 .` in a file `p.wat`, which its module replaces, and in a file `p.4th` beside a
directory `p.wasm`, which stops the run halfway. -/
theorem compile_changes_small_trees :
    let source := "7 .".toList
    let replaced := FileTree.ofList [("p.wat".toList, .file (Utf8.encode source))]
    let blocked := FileTree.ofList
      [("p.4th".toList, .file (Utf8.encode source)), ("p.wasm".toList, .directory)]
    ∃ module, Compiler.compile source = .ok module ∧
      (let run := compile replaced ["forth".toList, "p.wat".toList]
       run.ending = .done ∧ run.tree.read "p.wat".toList = .ok (Utf8.encode module)) ∧
      (let run := compile blocked ["forth".toList, "p.4th".toList]
       run.ending = .failed (.file ⟨.isDirectory, "p.wasm".toList⟩) ∧
         run.tree.read "p.wat".toList = .ok (Utf8.encode module)) := by
  intro source replaced blocked
  obtain ⟨module, compiled⟩ : ∃ module, Compiler.compile source = .ok module :=
    Compiler.exists_compileWords_iff.mpr (by decide +kernel)
  have decoded := Utf8.decode_encode source
  refine ⟨module, compiled, ?_, ?_⟩
  · have ready : Ready replaced "p.wat".toList (Utf8.encode source) source module :=
      ⟨rfl, decoded, compiled⟩
    have opened : replaced.target "p.wat".toList = .ok ["p.wat".toList] := rfl
    obtain ⟨_, _, _, _, effect⟩ :=
      compile_changes_outputs_only replaced ["forth".toList, "p.wat".toList]
    obtain ⟨_, _, _, _, _, _, same, readable, decoded', compiled', _, _, finished⟩ :=
      effect (not_stopsEarly ready opened)
    cases same
    cases ready.readable.symm.trans readable
    cases decoded.symm.trans decoded'
    cases compiled.symm.trans compiled'
    obtain ⟨ending, written, _⟩ := finished _ rfl
    exact ⟨ending, written⟩
  · have ready : Ready blocked "p.4th".toList (Utf8.encode source) source module :=
      ⟨rfl, decoded, compiled⟩
    have opened : blocked.target "p.wat".toList = .ok ["p.wat".toList] := rfl
    obtain ⟨_, _, _, _, effect⟩ :=
      compile_changes_outputs_only blocked ["forth".toList, "p.4th".toList]
    obtain ⟨_, _, _, _, _, _, same, readable, decoded', compiled', _, halfway, _⟩ :=
      effect (not_stopsEarly ready opened)
    cases same
    cases ready.readable.symm.trans readable
    cases decoded.symm.trans decoded'
    cases compiled.symm.trans compiled'
    obtain ⟨ending, written, _⟩ := halfway _ rfl
    exact ⟨ending, written⟩

end Command

end TinyForth
