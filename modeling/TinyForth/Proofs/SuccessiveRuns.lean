import TinyForth.Proofs.FileEffect

/-!
# One run after another

A run of the compile command reads one file.  Of the rest of the tree it sees the directories
only, which settle where a name leads and whether the file there can be opened for writing.
A run makes and removes no directory.  So what a run writes is the same before and after other
runs (`written_congr`), unless one of them wrote its source (`module?_compile`).

Two laws rest on this.  Two runs whose sources and outputs have different locations can change
places, whatever the toolchains are that they run with.  And a second run with the same
arguments writes what the first one wrote, or it finds a module where its source was and is
rejected.  Either way it changes nothing.  For a source with the extension of the binary format
this takes the standard toolchain, since another one could put an acceptable source there.
-/

namespace TinyForth

namespace FileTree

/-! ## Writing twice -/

theorem putAll_putAll_self (tree : FileTree) (heres : List Location)
    (content : Location → List UInt8) :
    (tree.putAll heres content).putAll heres content = tree.putAll heres content := by
  refine Std.ExtTreeMap.ext_getElem? fun other => ?_
  simp only [getElem?_putAll]
  split <;> rfl

/-- What is written to different files can be written in either order. -/
theorem putAll_comm (tree : FileTree) {heres theres : List Location}
    (content content' : Location → List UInt8) (apart : heres.Disjoint theres) :
    (tree.putAll heres content).putAll theres content' =
      (tree.putAll theres content').putAll heres content := by
  refine Std.ExtTreeMap.ext_getElem? fun other => ?_
  simp only [getElem?_putAll]
  by_cases first : other ∈ heres
  · have second : other ∉ theres := fun mem => apart first mem
    simp [first, second]
  · simp [first]

/-! ## Trees with the same directories -/

theorem SameDirectories.symm {tree tree' : FileTree} (h : SameDirectories tree tree') :
    SameDirectories tree' tree := fun here => (h here).symm

theorem toOption_eq_some_iff {ε α : Type} {x : Except ε α} {a : α} :
    x.toOption = some a ↔ x = .ok a := by
  cases x <;> simp [Except.toOption]

theorem target_of_sameDirectories {tree tree' : FileTree} (same : SameDirectories tree tree')
    {name : Text} {here : Location} (h : tree.target name = .ok here) :
    tree'.target name = .ok here := by
  obtain ⟨resolved, free⟩ := target_eq_ok_iff.mp h
  exact target_eq_ok_iff.mpr
    ⟨resolve_of_sameDirectories same resolved, fun directory => free ((same here).mpr directory)⟩

/-- Which files can be opened for writing is settled by the directories.  The error that stops
the opening of another one is not. -/
theorem target_toOption_congr {tree tree' : FileTree} (same : SameDirectories tree tree')
    (name : Text) : (tree'.target name).toOption = (tree.target name).toOption := by
  refine Option.ext fun here => ?_
  rw [toOption_eq_some_iff, toOption_eq_some_iff]
  exact ⟨target_of_sameDirectories same.symm, target_of_sameDirectories same⟩

/-- The location that a name leads to when every directory on the way is there. -/
def location (name : Text) : Location := (FileName.parts name).foldl descend (start name)

theorem foldl_descend_of_walk {tree : FileTree} {here there : Location} {parts : List Text}
    (h : tree.walk here parts = .ok there) : parts.foldl descend here = there := by
  induction parts generalizing here with
  | nil => exact Except.ok.inj h
  | cons part parts ih =>
      rw [walk] at h
      split at h
      next => cases h
      next => cases h
      next =>
        split at h
        next => cases h
        next => exact ih h

theorem location_of_resolve {tree : FileTree} {name : Text} {here : Location}
    (h : tree.resolve name = .ok here) : location name = here :=
  foldl_descend_of_walk (walk_of_resolve h)

theorem location_of_target {tree : FileTree} {name : Text} {here : Location}
    (h : tree.target name = .ok here) : location name = here :=
  location_of_resolve (target_eq_ok_iff.mp h).1

/-- Reading a name depends on the directories and on what stands where the name leads. -/
theorem read_of_kept {tree tree' : FileTree} (same : SameDirectories tree tree') {name : Text}
    (kept : tree'.node? (location name) = tree.node? (location name)) {bytes : List UInt8}
    (h : tree.read name = .ok bytes) : tree'.read name = .ok bytes := by
  obtain ⟨here, resolved, holds⟩ := read_eq_ok_iff.mp h
  rw [location_of_resolve resolved, holds] at kept
  exact read_of_sameDirectories same resolved kept

end FileTree

namespace Command

open FileTree (SameDirectories location)

/-! ## What a run writes -/

/-- The module of the source file of a name, if there is one. -/
def module? (listing : Word.Listing) (tree : FileTree) (name : Text) : Option Text :=
  (tree.read name).toOption.bind fun bytes =>
    (Utf8.decode bytes).toOption.bind fun source => (Compiler.compile source listing).toOption

theorem module?_eq_some_iff {listing : Word.Listing} {tree : FileTree} {name module : Text} :
    module? listing tree name = some module ↔
      ∃ bytes source, Ready tree name bytes source module listing := by
  simp only [module?, Option.bind_eq_some_iff, FileTree.toOption_eq_some_iff]
  constructor
  · rintro ⟨bytes, readable, source, decoded, compiled⟩
    exact ⟨bytes, source, readable, decoded, compiled⟩
  · rintro ⟨bytes, source, readable, decoded, compiled⟩
    exact ⟨bytes, readable, source, decoded, compiled⟩

/-- The locations of the outputs, up to the first that cannot be opened. -/
def opened (tree : FileTree) (root : Text) : List Location :=
  match (tree.target (root ++ watExtension)).toOption with
  | none => []
  | some here => here :: (tree.target (root ++ wasmExtension)).toOption.toList

theorem target_of_mem_opened {tree : FileTree} {root : Text} {here : Location}
    (h : here ∈ opened tree root) : tree.target (root ++ watExtension) = .ok here ∨
      tree.target (root ++ wasmExtension) = .ok here := by
  unfold opened at h
  split at h
  next => cases h
  next first found =>
    rcases List.mem_cons.mp h with rfl | second
    · exact .inl (FileTree.toOption_eq_some_iff.mp found)
    · exact .inr (FileTree.toOption_eq_some_iff.mp (Option.mem_toList.mp second))

section

variable (tools : Toolchain) (tree : FileTree) (name : Text)

/-- The locations that a run on a name writes to. -/
def written : List Location :=
  if (module? tools.listing tree name).isSome then opened tree (FileName.root name) else []

/-- The bytes that a run on a name writes to a location.  The first output has the text format and
the other one the binary format. -/
def writtenBytes (here : Location) : List UInt8 :=
  match module? tools.listing tree name with
  | none => []
  | some module =>
      if here = location (FileName.root name ++ watExtension) then Utf8.encode module
      else tools.binary.content module

/-- A run on a name opens both outputs and has something to write to them. -/
def Completes : Prop :=
  (written tools tree name).length = 2 ∧
    ∃ module, module? tools.listing tree name = some module ∧ tools.binary.failure? module = none

end

theorem mem_opened_of_mem_written {tools : Toolchain} {tree : FileTree} {name : Text}
    {here : Location} (h : here ∈ written tools tree name) :
    (∃ module, module? tools.listing tree name = some module) ∧
      here ∈ opened tree (FileName.root name) := by
  unfold written at h
  split at h
  next found => exact ⟨Option.isSome_iff_exists.mp found, h⟩
  next => cases h

theorem not_directory_of_mem_written {tools : Toolchain} {tree : FileTree} {name : Text} :
    ∀ here ∈ written tools tree name, tree.node? here ≠ some .directory := by
  intro here mem
  rcases target_of_mem_opened (mem_opened_of_mem_written mem).2 with target | target
  · exact (FileTree.target_eq_ok_iff.mp target).2
  · exact (FileTree.target_eq_ok_iff.mp target).2

theorem writtenBytes_of_targets {tools : Toolchain} {tree : FileTree} {name module : Text}
    {here there : Location} (found : module? tools.listing tree name = some module)
    (first : tree.target (FileName.root name ++ watExtension) = .ok here)
    (second : tree.target (FileName.root name ++ wasmExtension) = .ok there) :
    writtenBytes tools tree name here = Utf8.encode module ∧
      writtenBytes tools tree name there = tools.binary.content module := by
  have apart : there ≠ here := fun same => absurd
    ((FileTree.sibling_eq_iff (by decide) (by decide) (by decide)
      (FileTree.target_eq_ok_iff.mp second).1 (FileTree.target_eq_ok_iff.mp first).1).mp same)
    (by decide)
  simp only [writtenBytes, found, FileTree.location_of_target first]
  exact ⟨if_pos trivial, if_neg apart⟩

theorem written_of_module?_eq_none {tools : Toolchain} {tree : FileTree} {name : Text}
    (none : module? tools.listing tree name = none) :
    written tools tree name = [] ∧ ¬ Completes tools tree name := by
  simp [written, none, Completes]

/-- What a run writes, and when it is done. -/
theorem compile_writes (tools : Toolchain) (tree : FileTree) (command name : Text) :
    let run := compile tree [command, name] tools
    run.tree = tree.putAll (written tools tree name) (writtenBytes tools tree name) ∧
      (run.ending = .done ↔ Completes tools tree name) := by
  intro run
  have ends : Ends tools tree [command, name] run := compile_ends tree [command, name] tools
  clear_value run
  cases ends with
  | usage wrong => exact absurd rfl wrong
  | unreadable unread =>
      have none : module? tools.listing tree name = none := by
        simp [module?, unread, Except.toOption]
      obtain ⟨nothing, never⟩ := written_of_module?_eq_none none
      exact ⟨by rw [nothing]; rfl, iff_of_false (endingOfUnread_ne_done _) never⟩
  | undecodable readable undecoded =>
      have none : module? tools.listing tree name = none := by
        simp [module?, readable, undecoded, Except.toOption]
      obtain ⟨nothing, never⟩ := written_of_module?_eq_none none
      exact ⟨by rw [nothing]; rfl, iff_of_false (by simp) never⟩
  | rejected readable decoded rejection =>
      have none : module? tools.listing tree name = none := by
        simp [module?, readable, decoded, rejection, Except.toOption]
      obtain ⟨nothing, never⟩ := written_of_module?_eq_none none
      exact ⟨by rw [nothing]; rfl, iff_of_false (by simp) never⟩
  | unwritable ready unopened =>
      simp [written, module?_eq_some_iff.mpr ⟨_, _, ready⟩, opened, unopened, Except.toOption,
        FileTree.putAll, Completes]
  | halfway ready first unopened =>
      have found := module?_eq_some_iff.mpr ⟨_, _, ready⟩
      simp [written, writtenBytes, found, opened, first, unopened, Except.toOption,
        FileTree.putAll, Completes, FileTree.location_of_target first]
  | @opened _ _ _ _ module _ _ ready first second =>
      have found := module?_eq_some_iff.mpr ⟨_, _, ready⟩
      obtain ⟨text, binary⟩ := writtenBytes_of_targets found first second
      simp only [written, found, Option.isSome_some, if_pos, opened, first, second,
        Except.toOption, Option.toList_some, FileTree.putAll, List.foldl_cons, List.foldl_nil,
        text, binary, Completes]
      cases made : tools.binary.failure? module with
      | none => simp [made]
      | some failure => simp [made]

theorem node?_compile (tools : Toolchain) (tree : FileTree) (command name : Text)
    (other : Location) :
    (compile tree [command, name] tools).tree.node? other =
      if other ∈ written tools tree name then some (.file (writtenBytes tools tree name other))
      else tree.node? other := by
  rw [(compile_writes tools tree command name).1,
    FileTree.node?_putAll not_directory_of_mem_written]

/-- A run writes the same in two trees with the same directories if it has the same module. -/
theorem written_congr (tools : Toolchain) {tree tree' : FileTree}
    (same : SameDirectories tree tree') {name : Text}
    (found : module? tools.listing tree' name = module? tools.listing tree name) :
    written tools tree' name = written tools tree name ∧
      writtenBytes tools tree' name = writtenBytes tools tree name ∧
      (Completes tools tree' name ↔ Completes tools tree name) := by
  have outputs : opened tree' (FileName.root name) = opened tree (FileName.root name) := by
    rw [opened, FileTree.target_toOption_congr same, FileTree.target_toOption_congr same, opened]
  have heres : written tools tree' name = written tools tree name := by
    rw [written, found, outputs, written]
  refine ⟨heres, ?_, ?_⟩
  · funext here
    rw [writtenBytes, found, writtenBytes]
  · rw [Completes, heres, found, Completes]

/-! ## The same run again -/

/-- A source that holds a module is rejected before anything is opened for writing. -/
theorem compileSource_of_module {source module : Text}
    (compiled : Compiler.compile source = .ok module) {tree : FileTree} {name : Text}
    (readable : tree.read name = .ok (Utf8.encode module)) (command : Text) :
    compileSource tree [command, name] = .error (.failed (.word (.unknown ";;".toList))) := by
  rw [compileSource_of_decode readable (Utf8.decode_encode module),
    Compiler.compile_module compiled]

/-- After a run its source holds what it held before, or a module. -/
theorem read_source_after {tree : FileTree} {name : Text} {bytes : List UInt8}
    (readable : tree.read name = .ok bytes) (command : Text) :
    let run := compile tree [command, name]
    run.tree.read name = .ok bytes ∨
      ∃ source module, Compiler.compile source = .ok module ∧
        run.tree.read name = .ok (Utf8.encode module) := by
  intro run
  have same : SameDirectories tree run.tree :=
    sameDirectories_compile tree [command, name] .standard
  obtain ⟨own, resolved, holds⟩ := FileTree.read_eq_ok_iff.mp readable
  have node : run.tree.node? own = _ := node?_compile .standard tree command name own
  split at node
  next lost =>
    obtain ⟨module, found⟩ := (mem_opened_of_mem_written lost).1
    obtain ⟨_, source, ready⟩ := module?_eq_some_iff.mp found
    -- Either output holds the text, and the source is one of them.
    have text : writtenBytes .standard tree name own = Utf8.encode module := by
      simp only [writtenBytes, found, Format.content_text, ite_self]
    rw [text] at node
    exact .inr ⟨source, module, ready.compiled,
      FileTree.read_of_sameDirectories same resolved node⟩
  next =>
    rw [holds] at node
    exact .inl (FileTree.read_of_sameDirectories same resolved node)

theorem tree_compile_again (tree : FileTree) (command name : Text) :
    let run := compile tree [command, name]
    (compile run.tree [command, name]).tree = run.tree := by
  intro run
  cases readable : tree.read name with
  | error e =>
      have stopped : run.tree = tree := congrArg Compilation.tree (compile_of_unreadable readable)
      rw [stopped]
      exact stopped
  | ok bytes =>
      rcases read_source_after readable command with kept | ⟨source, module, compiled, replaced⟩
      · -- The source is as it was, so the same text goes to the same files once more.
        have found : module? .ascending run.tree name = module? .ascending tree name := by
          rw [module?, kept, module?, readable]
        obtain ⟨heres, bytes, _⟩ := written_congr .standard
          (sameDirectories_compile tree [command, name] .standard) found
        rw [(compile_writes .standard run.tree command name).1, heres, bytes,
          (compile_writes .standard tree command name).1, FileTree.putAll_putAll_self]
      · rw [compile, compileSource_of_module compiled replaced]

/-- Running the compiler again changes nothing, however the first run ended.  A source that holds
a module, whatever program it is a module of, is rejected before anything is opened for writing.
So is a source that the first run wrote over.  This rests on the standard toolchain, by which a
source with the extension of the binary format is written over with the text of its module. -/
theorem recompilation_changes_nothing (tree : FileTree) (args : List Text) :
    let run := compile tree args
    (compile run.tree args).tree = run.tree ∧
    (∀ source module, Compiler.compile source = .ok module →
      ∀ (tree' : FileTree) (command name : Text), tree'.read name = .ok (Utf8.encode module) →
        compileSource tree' [command, name] = .error (.failed (.word (.unknown ";;".toList)))) ∧
    (∀ command name bytes, args = [command, name] → tree.read name = .ok bytes →
      run.tree.read name ≠ .ok bytes →
        compile run.tree args =
          { tree := run.tree, ending := .failed (.word (.unknown ";;".toList)) }) := by
  intro run
  refine ⟨?_, ?_, ?_⟩
  · by_cases wrong : args.length ≠ 2
    · have stopped : run.tree = tree := congrArg Compilation.tree (compile_of_length wrong)
      rw [stopped]
      exact stopped
    · obtain ⟨command, name, rfl⟩ := List.length_eq_two.mp (not_not.mp wrong)
      exact tree_compile_again tree command name
  · intro source module compiled tree' command name readable
    exact compileSource_of_module compiled readable command
  · rintro command name bytes rfl readable lost
    rcases read_source_after readable command with kept | ⟨source, module, compiled, replaced⟩
    · exact absurd kept lost
    · rw [compile, compileSource_of_module compiled replaced]

/-- The source `7 .` in a file `p.wat`.  The first run writes its module over it, and the second
run is rejected. -/
theorem recompilation_of_replaced_source :
    let tree := FileTree.ofList [("p.wat".toList, .file (Utf8.encode "7 .".toList))]
    let args := ["forth".toList, "p.wat".toList]
    let run := compile tree args
    run.tree.read "p.wat".toList ≠ .ok (Utf8.encode "7 .".toList) ∧
      (compile run.tree args).tree = run.tree ∧
      (compile run.tree args).ending = .failed (.word (.unknown ";;".toList)) := by
  intro tree args run
  have lost : run.tree.read "p.wat".toList ≠ .ok (Utf8.encode "7 .".toList) := by decide +kernel
  obtain ⟨same, _, rejected⟩ := recompilation_changes_nothing tree args
  exact ⟨lost, same, congrArg Compilation.ending (rejected _ _ _ rfl rfl lost)⟩

/-! ## Runs that change places -/

/-- The locations of the source and of the outputs of a run. -/
def paths (name : Text) : List Location :=
  [location name, location (FileName.root name ++ watExtension),
    location (FileName.root name ++ wasmExtension)]

theorem written_subset_paths (tools : Toolchain) (tree : FileTree) (name : Text) :
    written tools tree name ⊆ paths name := by
  intro here mem
  rcases target_of_mem_opened (mem_opened_of_mem_written mem).2 with target | target
  · simp [paths, ← FileTree.location_of_target target]
  · simp [paths, ← FileTree.location_of_target target]

section

variable {tools tools' : Toolchain} (tree : FileTree) (command : Text) {p q : Text}

/-- A run has the same module after another run, if that one does not write its source. -/
theorem module?_compile (listing : Word.Listing) (apart : location p ∉ written tools' tree q) :
    module? listing (compile tree [command, q] tools').tree p = module? listing tree p := by
  have same := sameDirectories_compile tree [command, q] tools'
  have kept := node?_compile tools' tree command q (location p)
  rw [if_neg apart] at kept
  refine Option.ext fun module => ?_
  rw [module?_eq_some_iff, module?_eq_some_iff]
  constructor
  · rintro ⟨bytes, source, readable, decoded, compiled⟩
    exact ⟨bytes, source, FileTree.read_of_kept same.symm kept.symm readable, decoded, compiled⟩
  · rintro ⟨bytes, source, readable, decoded, compiled⟩
    exact ⟨bytes, source, FileTree.read_of_kept same kept readable, decoded, compiled⟩

/-- A run writes the same after another run, if they have no path in common. -/
theorem written_compile (apart : (paths p).Disjoint (paths q)) :
    let after := (compile tree [command, q] tools').tree
    written tools after p = written tools tree p ∧
      writtenBytes tools after p = writtenBytes tools tree p ∧
      (Completes tools after p ↔ Completes tools tree p) := by
  have source : location p ∉ written tools' tree q := fun mem =>
    apart (List.mem_cons_self ..) (written_subset_paths tools' tree q mem)
  exact written_congr tools (sameDirectories_compile tree [command, q] tools')
    (module?_compile tree command tools.listing source)

end

/-- Two runs that have no path in common leave the same tree in either order, and each is done
after the other exactly if it is done before it.  Each run has a toolchain of its own, about which
nothing is assumed: variables may be declared in any order, and the binary format may be anything
and may fail. -/
theorem compilations_commute (tree : FileTree) (command command' p q : Text)
    (tools tools' : Toolchain) (apart : (paths p).Disjoint (paths q)) :
    let onP := compile tree [command, p] tools
    let onQ := compile tree [command', q] tools'
    (compile onP.tree [command', q] tools').tree = (compile onQ.tree [command, p] tools).tree ∧
      ((compile onP.tree [command', q] tools').ending = .done ↔ onQ.ending = .done) ∧
      ((compile onQ.tree [command, p] tools).ending = .done ↔ onP.ending = .done) := by
  intro onP onQ
  obtain ⟨treeP, doneP⟩ := compile_writes tools tree command p
  obtain ⟨treeQ, doneQ⟩ := compile_writes tools' tree command' q
  obtain ⟨treePQ, donePQ⟩ := compile_writes tools' onP.tree command' q
  obtain ⟨treeQP, doneQP⟩ := compile_writes tools onQ.tree command p
  -- What each run writes after the other is what it writes before it.
  obtain ⟨heresP, bytesP, completesP⟩ := written_compile tree command' apart
  obtain ⟨heresQ, bytesQ, completesQ⟩ := written_compile tree command fun _ inQ inP => apart inP inQ
  rw [heresQ, bytesQ] at treePQ
  rw [heresP, bytesP] at treeQP
  refine ⟨?_, donePQ.trans (completesQ.trans doneQ.symm),
    doneQP.trans (completesP.trans doneP.symm)⟩
  have heres : (written tools tree p).Disjoint (written tools' tree q) := fun _ inP inQ =>
    apart (written_subset_paths tools tree p inP) (written_subset_paths tools' tree q inQ)
  rw [treePQ, treeQP, treeP, treeQ, FileTree.putAll_comm _ _ _ heres]

/-- A source `a.4th`, and a name that leads through its output `a.wat` as if that were a
directory.  The run on the second name fails in either order, with different errors. -/
theorem compilations_commute_through_output :
    let tree := FileTree.ofList [("a.4th".toList, .file (Utf8.encode "7 .".toList))]
    let p := "a.wat/x.4th".toList
    let q := "a.4th".toList
    let onP := compile tree ["forth".toList, p]
    let onQ := compile tree ["forth".toList, q]
    (paths p).Disjoint (paths q) ∧
      (compile onP.tree ["forth".toList, q]).tree = (compile onQ.tree ["forth".toList, p]).tree ∧
      onP.ending = .refused (notFound p) ∧
      (compile onQ.tree ["forth".toList, p]).ending = .failed (.file ⟨.notDirectory, p⟩) := by
  intro tree p q onP onQ
  have apart : (paths p).Disjoint (paths q) := List.disjoint_iff_ne.mpr (by decide)
  exact ⟨apart, (compilations_commute tree _ _ p q .standard .standard apart).1, rfl,
    by decide +kernel⟩

end Command

end TinyForth
