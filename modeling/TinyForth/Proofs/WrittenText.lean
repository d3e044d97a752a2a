import TinyForth.Command.Execute
import TinyForth.Proofs.Comments
import TinyForth.Proofs.PrintedNumbers
import TinyForth.Proofs.Simulation

/-!
# Programs that write a text

The compile command leaves a module behind, and the execute command loads it.  What a module does
to its console is the calls it makes, which `calls` lists.  Running the machine and making these
calls leave the same console (`console_run`), so the execute command writes what the machine does
(`execute_calls`).

The simplest program that writes a text has, for each character, its code point in decimal and
the word `emit` (`emitting`).  A code point is short enough to be read as a numeral and small
enough to be a literal of the text format, and the cell that it becomes goes to the console as the
same number again (`toInt_ofInt_toNat`).  So the module of these words makes one call for each
character (`run_emissions`), and no call is refused.
-/

namespace TinyForth

/-! ## The calls of a module -/

namespace Wat.Machine

/-- The console call that an instruction makes. -/
def call? (m : Machine) : Instruction → Option Call
  | .call .emit => m.stack.head?.map fun x => .emit x.toInt
  | .call .print => m.stack.head?.map fun x => .print x.toInt
  | .call .input => some .input
  | .const _ | .add | .mul | .get _ | .set _ => none

/-- The console calls that some instructions make, in order.  One that is refused is the last. -/
def calls (m : Machine) : List Instruction → List Call
  | [] => []
  | i :: is =>
      (m.call? i).toList ++
        match m.step i with
        | .error _ => []
        | .ok after => after.calls is

/-- A call that is refused changes nothing, and any other leaves the console it comes to. -/
theorem callConsole_cases (m : Machine) (c : Call) (rest : List Cell) :
    (∃ trap, m.callConsole c rest = .error trap ∧ (m.console.call c).1 = m.console) ∨
      ∃ after, m.callConsole c rest = .ok after ∧ (m.console.call c).1 = after.console := by
  rw [callConsole, Console.callOn, Console.perform]
  dsimp only
  cases replied : (m.console.call c).2.result with
  | error e => exact .inl ⟨_, rfl, Console.call_of_error replied⟩
  | ok n? => exact .inr ⟨_, rfl, rfl⟩

/-- An operator of two cells leaves the console alone. -/
theorem console_of_binary {m after : Machine} {f : Cell → Cell → Cell}
    (h : (match m.stack with
      | y :: x :: rest => .ok { m with stack := f x y :: rest }
      | _ => .error Trap.stuck) = Except.ok after) : after.console = m.console := by
  split at h
  next => cases h; rfl
  next => cases h

/-- An instruction that writes the top cell makes its call, unless there is no cell. -/
theorem step_cases_of_output {m : Machine} {i : Instruction} {f : Int → Call}
    (called : m.call? i = m.stack.head?.map fun x => f x.toInt)
    (stepped : m.step i = match m.stack with
      | x :: rest => m.callConsole (f x.toInt) rest
      | [] => .error .stuck) :
    (m.call? i = none ∧ ∀ after, m.step i = .ok after → after.console = m.console) ∨
      ∃ c rest, m.call? i = some c ∧ m.step i = m.callConsole c rest := by
  rw [called, stepped]
  cases m.stack with
  | nil => exact .inl ⟨rfl, fun after h => by cases h⟩
  | cons x rest => exact .inr ⟨f x.toInt, rest, rfl, rfl⟩

/-- An instruction leaves the console alone or makes its call. -/
theorem step_cases (m : Machine) (i : Instruction) :
    (m.call? i = none ∧ ∀ after, m.step i = .ok after → after.console = m.console) ∨
      ∃ c rest, m.call? i = some c ∧ m.step i = m.callConsole c rest := by
  cases i with
  | const n => exact .inl ⟨rfl, fun after h => by cases h; rfl⟩
  | add => exact .inl ⟨rfl, fun after h => console_of_binary h⟩
  | mul => exact .inl ⟨rfl, fun after h => console_of_binary h⟩
  | get x =>
      refine .inl ⟨rfl, fun after h => ?_⟩
      rw [step] at h
      split at h
      next => cases h; rfl
      next => cases h
  | set x =>
      refine .inl ⟨rfl, fun after h => ?_⟩
      rw [step] at h
      split at h
      next =>
        split at h
        next => cases h; rfl
        next => cases h
      next => cases h
  | call f =>
      cases f with
      | input => exact .inr ⟨.input, m.stack, rfl, rfl⟩
      | emit => exact step_cases_of_output rfl rfl
      | print => exact step_cases_of_output rfl rfl

theorem run_cons_of_step {m after : Machine} {i : Instruction} (h : m.step i = .ok after)
    (is : List Instruction) : m.run (i :: is) = after.run is := by
  rw [run, h]

theorem calls_cons_of_step {m after : Machine} {i : Instruction} (h : m.step i = .ok after)
    (is : List Instruction) : m.calls (i :: is) = (m.call? i).toList ++ after.calls is := by
  rw [calls, h]

/-- Making the calls of a run leaves the console of the run. -/
theorem console_run (m : Machine) (is : List Instruction) :
    (m.console.run (m.calls is)).1 = (m.run is).1.console := by
  induction is generalizing m with
  | nil => rfl
  | cons i is ih =>
      rw [calls, run, Console.run_append]
      dsimp only
      rcases m.step_cases i with ⟨silent, kept⟩ | ⟨c, rest, called, step⟩
      · rw [silent]
        cases stepped : m.step i with
        | error trap => rfl
        | ok after =>
            rw [← kept after stepped]
            exact ih after
      · rw [called, step]
        rcases m.callConsole_cases c rest with ⟨trap, refused, kept⟩ | ⟨after, made, console⟩
        · -- The refused call is the last of the list, and it leaves the console as it was.
          rw [refused]
          exact kept
        · rw [made, ← ih after, ← console]
          rfl

end Wat.Machine

/-- The console calls that a module makes. -/
def Wat.Module.calls (module : Module) (console : Console) : List Call :=
  (module.start console).calls module.body

/-- Executing a module by its calls writes what the module writes. -/
theorem Command.execute_calls {tree : FileTree} {name : Text} {bytes : List UInt8}
    (readable : tree.read name = .ok bytes) (command : Text) (module : Wat.Module) (stdin : Text) :
    execute tree [command, name] stdin (module.calls (.start stdin)) =
      { loaded? := some bytes
        replies := ((Console.start stdin).run (module.calls (.start stdin))).2
        stdout := (module.run (.start stdin)).1.console.written
        ending := .done } := by
  have loaded : loadModule tree [command, name] = .ok bytes := by
    simp only [loadModule, argument, bind, Except.bind, readable]
    rfl
  have console : ((Console.start stdin).run (module.calls (.start stdin))).1 =
      (module.run (.start stdin)).1.console :=
    (module.start (.start stdin)).console_run module.body
  rw [execute, loaded, ← console]

/-! ## One character -/

theorem Console.character_toNat (c : Char) : character c.toNat = .ok c := by
  obtain ⟨range, scalar⟩ := Text.toNat_scalar c
  rw [character, if_neg (by omega), if_neg (by omega), if_neg (by omega), Int.toNat_natCast,
    Char.ofNat_toNat]

/-- A code point goes through a cell unchanged. -/
theorem toInt_ofInt_toNat (c : Char) : (BitVec.ofInt 32 c.toNat).toInt = c.toNat := by
  have range := (Text.toNat_scalar c).1
  refine BitVec.toInt_ofInt_eq_self (by decide) ?_ ?_
  · omega
  · omega

theorem Numeral.value?_toNat (c : Char) :
    value? (Nat.toDigits 10 c.toNat) = some (c.toNat : Int) := by
  have range := (Text.toNat_scalar c).1
  have short : (Nat.toDigits 10 c.toNat).length ≤ 7 :=
    (Nat.length_toDigits_le_iff (by decide) (by decide)).mpr (by omega)
  exact value?_render (n := c.toNat) (Nat.le_trans short (by decide))

theorem Wat.literal?_toNat (c : Char) :
    literal? (Nat.toDigits 10 c.toNat) = some (BitVec.ofInt 32 c.toNat) := by
  have range := (Text.toNat_scalar c).1
  have value := Numeral.value?_toNat c
  have digits := Numeral.isDigit_of_mem_toDigits (n := c.toNat)
  have literal : (literal? (Nat.toDigits 10 c.toNat)).isSome = true := by
    refine (literal?_isSome_iff value ?_).mpr ⟨?_, ?_⟩
    · exact Numeral.isPadding_eq_false_of_mem_render c.toNat
    · exact fun d mem => Nat.lt_of_le_of_lt (Text.isDigit_iff.mp (digits d mem)).2 (by decide)
    · have unsigned : ¬ ((Nat.toDigits 10 c.toNat).head? = some '+' ∨
          (Nat.toDigits 10 c.toNat).head? = some '-') := by
        rintro (plus | minus)
        · exact absurd (digits _ (List.mem_of_head? plus)) (by decide)
        · exact absurd (digits _ (List.mem_of_head? minus)) (by decide)
      rw [InRange, if_neg unsigned]
      omega
  obtain ⟨n, found⟩ := Option.isSome_iff_exists.mp literal
  rw [found, literal?_eq_ofInt found value]

/-! ## A text -/

/-- The words that write a text. -/
def Word.emitting (s : Text) : List Word :=
  s.flatMap fun c => [Nat.toDigits 10 c.toNat, "emit".toList]

/-- The instructions that write a text. -/
def Wat.emissions (s : Text) : List Wat.Instruction :=
  s.flatMap fun c => [.const (BitVec.ofInt 32 c.toNat), .call .emit]

theorem Console.run_emits (console : Console) (s : Text) :
    console.run (s.map fun c => .emit c.toNat) =
      ({ console with written := console.written ++ s }, s.map fun c => { out := [c] }) := by
  induction s generalizing console with
  | nil => simp [run]
  | cons c s ih =>
      have first : console.call (.emit c.toNat) = console.put [c] := by
        rw [call, character_toNat]
      rw [List.map_cons, run_cons, first, ih]
      simp [put]

/-- The instructions that write a text make one call for each character, and leave the stack as it
is. -/
theorem Wat.Machine.run_emissions (m : Machine) (s : Text) :
    (m.run (emissions s)).1.stack = m.stack ∧ (m.run (emissions s)).2 = none ∧
      m.calls (emissions s) = s.map fun c => .emit c.toNat := by
  induction s generalizing m with
  | nil => exact ⟨rfl, rfl, rfl⟩
  | cons c s ih =>
      -- The code point is pushed as a cell and popped by the call as the same number.
      have operand := toInt_ofInt_toNat c
      have emitted : step { m with stack := BitVec.ofInt 32 c.toNat :: m.stack } (.call .emit) =
          .ok { m with console := (m.console.put [c]).1 } := by
        rw [step]
        dsimp only
        rw [operand, callConsole, Console.callOn, Console.perform, Console.call,
          Console.character_toNat]
        rfl
      have pushed : m.step (.const (BitVec.ofInt 32 c.toNat)) =
          .ok { m with stack := BitVec.ofInt 32 c.toNat :: m.stack } := rfl
      have called : call? { m with stack := BitVec.ofInt 32 c.toNat :: m.stack } (.call .emit) =
          some (.emit c.toNat) := congrArg (fun n => some (Call.emit n)) operand
      rw [emissions, List.flatMap_cons, ← emissions, List.cons_append, List.singleton_append,
        run_cons_of_step pushed, run_cons_of_step emitted, calls_cons_of_step pushed,
        calls_cons_of_step emitted, called]
      obtain ⟨stack, trap, later⟩ := ih { m with console := (m.console.put [c]).1 }
      exact ⟨stack, trap, congrArg (Call.emit c.toNat :: ·) later⟩

/-- A module of these instructions makes the calls, ends with an empty stack, and has then written
the text. -/
theorem Wat.Module.run_emissions (s stdin : Text) :
    let module : Module := ⟨[], emissions s⟩
    let ran := module.run (.start stdin)
    (ran.1.stack = [] ∧ ran.1.console.written = s ∧ ran.2 = none) ∧
      module.calls (.start stdin) = s.map fun c => .emit c.toNat := by
  intro module ran
  obtain ⟨stack, trap, called⟩ := (module.start (.start stdin)).run_emissions s
  have console : ran.1.console = ((Console.start stdin).run (s.map fun c => .emit c.toNat)).1 := by
    rw [← called]
    exact ((module.start (.start stdin)).console_run (emissions s)).symm
  refine ⟨⟨stack, ?_, trap⟩, called⟩
  rw [console, Console.run_emits]
  rfl

namespace Word

theorem mem_emitting {s : Text} {w : Word} (h : w ∈ emitting s) :
    (∃ c : Char, w = Nat.toDigits 10 c.toNat) ∨ w = "emit".toList := by
  obtain ⟨c, _, mem⟩ := List.mem_flatMap.mp h
  rcases List.mem_pair.mp mem with rfl | rfl
  · exact .inl ⟨c, rfl⟩
  · exact .inr rfl

/-- No word of a program that writes a text is a variable, with a mark or without. -/
theorem eq_nil_of_variablesIn_emitting {s : Text} {names : List Word}
    (found : variablesIn .standard (emitting s) = .ok names) : names = [] := by
  refine List.eq_nil_iff_forall_not_mem.mpr fun x mem => ?_
  obtain ⟨var, used⟩ := (mem_of_variablesIn found).mp mem
  obtain ⟨shape, missing⟩ := isVariable_eq_true_iff.mp var
  rcases used with plain | marked
  · rcases mem_emitting plain with ⟨c, rfl⟩ | rfl
    · have numeral := isNumeral_eq_false_of_hasNameShape shape
      rw [Numeral.isNumeral, Numeral.value?_toNat] at numeral
      cases numeral
    · exact absurd missing (by decide)
  · have mark : '!' ∈ x ++ ['!'] := List.mem_append_right x (List.mem_singleton.mpr rfl)
    rcases mem_emitting marked with ⟨c, same⟩ | same
    · rw [same] at mark
      exact absurd (Numeral.isDigit_of_mem_toDigits _ mark) (by decide)
    · rw [same] at mark
      exact absurd mark (by decide)

end Word

theorem Wat.translations_emitting (s : Text) :
    ∃ ts, List.Forall₂ (Word.Translates .standard) (Word.emitting s) ts ∧
      ts.flatten.mapM Instruction.ofLine? = some (emissions s) := by
  induction s with
  | nil => exact ⟨[], .nil, rfl⟩
  | cons c s ih =>
      obtain ⟨ts, translated, decoded⟩ := ih
      have numeral : Numeral.isNumeral (Nat.toDigits 10 c.toNat) = true := by
        rw [Numeral.isNumeral, Numeral.value?_toNat]
        rfl
      have emit : Vocabulary.standard["emit".toList]? = some ["call $emit".toList] := by decide
      refine ⟨_, .cons (.numeral numeral) (.cons (.operation emit) translated), ?_⟩
      rw [List.flatten_cons, List.flatten_cons, List.singleton_append, List.mapM_cons,
        ofLine?_const, literal?_toNat, List.mapM_append, decoded]
      rfl

theorem Compiler.strip_words_emitting (s : Text) :
    Comment.strip (sourceWords (List.intercalate [' '] (Word.emitting s))) = Word.emitting s := by
  have solid : ∀ w ∈ Word.emitting s, w ≠ [] ∧ ∀ c ∈ w, Text.isBlank c = false := by
    intro w mem
    rcases Word.mem_emitting mem with ⟨c, rfl⟩ | rfl
    · exact ⟨Nat.toDigits_ne_nil, fun d mem => Text.isBlank_eq_false_of_digit?
        (Text.digit?_of_isDigit (Numeral.isDigit_of_mem_toDigits d mem))⟩
    · exact ⟨by decide, Text.forall_mem_of_all (by decide)⟩
  have noComment : Comment.opening ∉ Word.emitting s := by
    intro mem
    rcases Word.mem_emitting mem with ⟨c, same⟩ | same
    · have paren : '(' ∈ Nat.toDigits 10 c.toNat := same ▸ List.mem_singleton.mpr rfl
      exact absurd (Numeral.isDigit_of_mem_toDigits _ paren) (by decide)
    · exact absurd same (by decide)
  rw [sourceWords_eq, Text.words_intercalate (by decide) solid, Comment.strip_of_not_mem noComment]

/-! ## From source to output -/

namespace Command

/-- A text is written by the program that emits its characters one by one.  The words of the
program may be spread over a source in any way, with comments between them, and a space between
neighbours is one way.  If both outputs can be written, the source is accepted.  Its module has no
locals and makes one call for each character, and running it writes the text and leaves an empty
stack.  The execute command loads the text of the module from the second output, and the calls of
the module then write the text. -/
theorem text_is_written (s : Text) :
    Comment.strip (Compiler.sourceWords (List.intercalate [' '] (Word.emitting s))) =
      Word.emitting s ∧
    ∀ (tree : FileTree) (command command' name source stdin : Text),
      Comment.strip (Compiler.sourceWords source) = Word.emitting s →
      tree.read name = .ok (Utf8.encode source) →
      tree.Writable (FileName.root name ++ ".wat".toList) →
      tree.Writable (FileName.root name ++ ".wasm".toList) →
      let compiled := compile tree [command, name]
      compiled.ending = .done ∧
      ∃ text module,
        compiled.tree.read (FileName.root name ++ ".wat".toList) = .ok (Utf8.encode text) ∧
        Wat.Module.read? text = some module ∧ module.locals = [] ∧
        (let ran := module.run (.start stdin)
         ran.1.stack = [] ∧ ran.1.console.written = s ∧ ran.2 = none) ∧
        let calls := module.calls (.start stdin)
        calls = s.map (fun c => .emit c.toNat) ∧
        execute compiled.tree [command', FileName.root name ++ ".wasm".toList] stdin calls =
          { loaded? := some (Utf8.encode text)
            replies := s.map fun c => { out := [c] }
            stdout := s
            ending := .done } := by
  refine ⟨Compiler.strip_words_emitting s, ?_⟩
  intro tree command command' name source stdin words readable wat wasm compiled
  obtain ⟨here, opened⟩ := FileTree.writable_iff.mp wat
  obtain ⟨there, opened'⟩ := FileTree.writable_iff.mp wasm
  obtain ⟨ts, translated, decoded⟩ := Wat.translations_emitting s
  obtain ⟨names, found, accepted⟩ := Compiler.compileWords_of_translates translated
  obtain rfl := Word.eq_nil_of_variablesIn_emitting found
  have noNewline := Wat.newline_not_mem_of_translations translated
    fun w mem => Compiler.newline_not_mem_of_source (words ▸ mem)
  have noNames : ∀ x ∈ ([] : List Text), '\n' ∉ x := by simp
  have read := Wat.read?_module noNames noNewline (Wat.isDeclaration_of_translations translated)
    decoded
  generalize Text.ofLines _ = text at accepted read
  have outcome : Compiler.compile source = .ok text := by
    rw [Compiler.compile, words, accepted]
  have done : compiled = _ := compile_of_targets readable outcome opened opened'
  have outputs : ∀ ext ∈ [watExtension, wasmExtension],
      compiled.tree.read (FileName.root name ++ ext) = .ok (Utf8.encode text) := by
    rw [done]
    exact read_outputs opened opened' (Utf8.encode text)
  obtain ⟨ran, called⟩ := Wat.Module.run_emissions s stdin
  refine ⟨by rw [done], text, _, outputs watExtension (by simp), read, rfl, ran, called, ?_⟩
  have loadable := outputs wasmExtension (by simp)
  refine (execute_calls loadable command' ⟨[], Wat.emissions s⟩ stdin).trans ?_
  rw [called, Console.run_emits, ran.2.1]

/-- A text with characters of one, two and three bytes, from a source with a comment and two
lines. -/
theorem three_characters_are_written :
    let s := "h\u00e9\u4e16".toList
    let source := "( greet ) 104 emit 233 emit\n19990 emit".toList
    let tree := FileTree.ofList [("p.4th".toList, .file (Utf8.encode source))]
    let compiled := compile tree ["forth".toList, "p.4th".toList]
    Comment.strip (Compiler.sourceWords source) = Word.emitting s ∧ compiled.ending = .done ∧
      ∃ text module, Wat.Module.read? text = some module ∧
        let executed := execute compiled.tree ["run".toList, "p.wasm".toList] []
          (module.calls (.start []))
        executed.loaded? = some (Utf8.encode text) ∧ executed.stdout = s := by
  intro s source tree compiled
  have words : Comment.strip (Compiler.sourceWords source) = Word.emitting s := by decide +kernel
  obtain ⟨done, text, module, _, read, _, _, _, executed⟩ :=
    (text_is_written s).2 tree "forth".toList "run".toList "p.4th".toList source [] words rfl
      ⟨[], _, rfl⟩ ⟨[], _, rfl⟩
  refine ⟨words, done, text, module, read, ?_⟩
  intro run
  exact ⟨congrArg Execution.loaded? executed, congrArg Execution.stdout executed⟩

end Command

end TinyForth
