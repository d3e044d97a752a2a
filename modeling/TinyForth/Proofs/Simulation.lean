import TinyForth.Evaluation
import TinyForth.Proofs.Declarations
import TinyForth.Proofs.Literal
import TinyForth.Wat.Machine

/-!
# Words and the code they compile to

Running the words of a program and running the module it compiles to come to the same end.
`Agrees` relates the two states: the same stack, the same console, and in each declared local
the value of the variable.  A variable that is not declared has no local, and is zero.

One word may be several instructions.  So a step of the words is matched by a block of
instructions (`Follows`): where the word succeeds the block runs through and the states agree
again, and where it traps the block stops with the same trap and the machine as it was.  The
newline is the one word of two instructions, and it keeps to this since writing a newline never
fails.  From the blocks the whole run follows by induction over the words (`run_follows`).

What the machine runs is read back from the text of the module.  A numeral stands there as
the source has it, and it is read as a literal of the text format, which is where
`literal?_eq_ofInt` comes in.
-/

namespace TinyForth

/-! ## What a word does -/

theorem Numeral.value?_eq_none {t : Text} (h : isNumeral t = false) : value? t = none :=
  Option.isNone_iff_eq_none.mp (Option.isSome_eq_false_iff.mp h)

namespace Evaluation

variable {s : Evaluation} {w x : Word}

theorem operation?_eq_none (h : Vocabulary.standard[w]? = none) : s.operation? w = none := by
  obtain ⟨nl, input, emit, dot, plus, times⟩ := Vocabulary.standard_eq_none_iff.mp h
  rw [operation?]
  simp only [if_neg nl, if_neg input, if_neg emit, if_neg dot, if_neg plus, if_neg times]

theorem step_of_value? {n : Int} (h : Numeral.value? w = some n) :
    s.step w = .ok { s with stack := BitVec.ofInt 32 n :: s.stack } := by
  rw [step, h]

theorem step_of_operation? {result : Except Trap Evaluation}
    (numeral : Numeral.isNumeral w = false) (h : s.operation? w = some result) :
    s.step w = result := by
  rw [step, Numeral.value?_eq_none numeral, h]

theorem step_of_isVariable (h : Word.isVariable .standard x = true) :
    s.step x = .ok { s with stack := s.value x :: s.stack } := by
  obtain ⟨shape, missing⟩ := Word.isVariable_eq_true_iff.mp h
  rw [step, Numeral.value?_eq_none (Word.isNumeral_eq_false_of_hasNameShape shape),
    operation?_eq_none missing]
  dsimp only
  rw [if_pos shape]

theorem step_mark (h : Word.isVariable .standard x = true) :
    s.step (x ++ ['!']) =
      match s.stack with
      | n :: rest => .ok { s with stack := rest, store := s.store.insert x n }
      | [] => .error .stuck := by
  have shape := (Word.isVariable_eq_true_iff.mp h).1
  have marked : ¬ Word.hasNameShape (x ++ ['!']) = true := fun shape =>
    Word.mark_not_mem_of_hasNameShape shape (List.mem_append_right x (List.mem_singleton.mpr rfl))
  rw [step, Numeral.value?_eq_none (Word.isNumeral_mark x),
    operation?_eq_none (Vocabulary.standard_mark x)]
  dsimp only
  rw [if_neg marked, Word.target?_mark]
  cases s.stack with
  | nil => rfl
  | cons n rest => exact if_pos shape

theorem value_insert (s : Evaluation) (stack : List Cell) (x y : Word) (n : Cell) :
    value { s with stack, store := s.store.insert x n } y = if x = y then n else s.value y := by
  simp only [value, Std.ExtTreeMap.getD_insert, Std.LawfulEqCmp.compare_eq_iff_eq]

end Evaluation

/-- Writing a newline succeeds. -/
theorem Console.callOn_newline (console : Console) (stack : List Cell) :
    console.callOn (.emit 10) stack =
      .ok ({ console with written := console.written ++ ['\n'] }, stack) := rfl

/-! ## Agreement of the states -/

/-- The machine, with these locals, stands where the evaluation stands. -/
structure Agrees (names : List Text) (s : Evaluation) (m : Wat.Machine) : Prop where
  stack : m.stack = s.stack
  console : m.console = s.console
  declared : ∀ x ∈ names, m.locals[x]? = some (s.value x)
  others : ∀ x, x ∉ names → m.locals[x]? = none ∧ s.value x = 0

namespace Agrees

variable {names : List Text} {s : Evaluation} {m : Wat.Machine}

theorem withStack (h : Agrees names s m) (stack : List Cell) :
    Agrees names { s with stack } { m with stack } :=
  ⟨rfl, h.console, h.declared, h.others⟩

theorem withConsole (h : Agrees names s m) (console : Console) (stack : List Cell) :
    Agrees names { s with console, stack } { m with console, stack } :=
  ⟨rfl, rfl, h.declared, h.others⟩

theorem insert (h : Agrees names s m) {x : Text} (mem : x ∈ names) (stack : List Cell) (n : Cell) :
    Agrees names { s with stack, store := s.store.insert x n }
      { m with stack, locals := m.locals.insert x n } := by
  refine ⟨rfl, h.console, ?_, ?_⟩
  · intro y memY
    rw [Evaluation.value_insert, Std.ExtTreeMap.getElem?_insert]
    simp only [Std.LawfulEqCmp.compare_eq_iff_eq]
    by_cases same : x = y
    · rw [if_pos same, if_pos same]
    · rw [if_neg same, if_neg same]
      exact h.declared y memY
  · intro y notMem
    have apart : ¬ x = y := by
      rintro rfl
      exact notMem mem
    rw [Evaluation.value_insert, Std.ExtTreeMap.getElem?_insert]
    simp only [Std.LawfulEqCmp.compare_eq_iff_eq]
    rw [if_neg apart, if_neg apart]
    exact h.others y notMem

theorem getD_locals (h : Agrees names s m) (x : Text) : m.locals.getD x 0 = s.value x := by
  rw [Std.ExtTreeMap.getD_eq_getD_getElem?]
  by_cases mem : x ∈ names
  · rw [h.declared x mem, Option.getD_some]
  · rw [(h.others x mem).1, Option.getD_none, (h.others x mem).2]

/-- A module starts with every declared local at zero, as every variable is. -/
theorem start (nodup : names.Nodup) (body : List Wat.Instruction) (console : Console) :
    Agrees names { console } (Wat.Module.start ⟨names, body⟩ console) := by
  have zero : ∀ x, Evaluation.value { console } x = 0 := fun x => Std.ExtTreeMap.getD_empty
  have distinct : (names.map fun x => (x, (0 : Cell))).Pairwise
      fun a b => ¬ compare a.1 b.1 = .eq := by
    refine List.pairwise_map.mpr (nodup.imp ?_)
    intro x y apart same
    exact apart (Std.LawfulEqCmp.compare_eq_iff_eq.mp same)
  refine ⟨rfl, rfl, ?_, ?_⟩
  · intro x mem
    rw [zero]
    exact Std.ExtTreeMap.getElem?_ofList_of_mem Std.ReflCmp.compare_self distinct
      (List.mem_map_of_mem mem)
  · intro x notMem
    refine ⟨Std.ExtTreeMap.getElem?_ofList_of_contains_eq_false ?_, zero x⟩
    simpa using notMem

end Agrees

/-! ## Blocks of instructions -/

namespace Wat.Machine

theorem run_append (m : Machine) (is js : List Instruction) :
    m.run (is ++ js) =
      match m.run is with
      | (after, none) => after.run js
      | (after, some trap) => (after, some trap) := by
  induction is generalizing m with
  | nil => rfl
  | cons i is ih =>
      rw [List.cons_append, run, run]
      cases m.step i with
      | error trap => rfl
      | ok after => exact ih after

end Wat.Machine

/-- The block does to the machine what a word did, with this outcome, to the evaluation. -/
def Follows (names : List Text) (m : Wat.Machine) (is : List Wat.Instruction) :
    Except Trap Evaluation → Prop
  | .ok s => ∃ m', m.run is = (m', none) ∧ Agrees names s m'
  | .error trap => m.run is = (m, some trap)

namespace Follows

variable {names : List Text} {s s' : Evaluation} {m m' : Wat.Machine} {i : Wat.Instruction}

theorem of_step (h : m.step i = .ok m') (agree : Agrees names s' m') :
    Follows names m [i] (.ok s') := by
  refine ⟨m', ?_, agree⟩
  rw [Wat.Machine.run, h]
  rfl

theorem of_trap {trap : Trap} (h : m.step i = .error trap) :
    Follows names m [i] (.error trap) := by
  show m.run [i] = (m, some trap)
  rw [Wat.Machine.run, h]

/-- Both sides make a console call in the same way. -/
theorem of_callConsole (agree : Agrees names s m) {c : Call} {rest : List Cell}
    (h : m.step i = m.callConsole c rest) : Follows names m [i] (s.callConsole c rest) := by
  rw [Wat.Machine.callConsole, agree.console] at h
  rw [Evaluation.callConsole]
  cases called : s.console.callOn c rest with
  | error trap =>
      rw [called] at h
      exact of_trap h
  | ok after =>
      rw [called] at h
      exact of_step h (agree.withConsole after.1 after.2)

theorem of_binary (agree : Agrees names s m) {f : Cell → Cell → Cell}
    (h : m.step i = match m.stack with
      | y :: x :: rest => .ok { m with stack := f x y :: rest }
      | _ => .error .stuck) :
    Follows names m [i] (match s.stack with
      | y :: x :: rest => .ok { s with stack := f x y :: rest }
      | _ => .error .stuck) := by
  rw [agree.stack] at h
  match operands : s.stack with
  | [] =>
      rw [operands] at h
      exact of_trap h
  | [_] =>
      rw [operands] at h
      exact of_trap h
  | y :: x :: rest =>
      rw [operands] at h
      exact of_step h (agree.withStack _)

/-- Both sides pop the operand of a console call. -/
theorem of_output (agree : Agrees names s m) {f : Int → Call}
    (h : m.step i = match m.stack with
      | x :: rest => m.callConsole (f x.toInt) rest
      | [] => .error .stuck) :
    Follows names m [i] (match s.stack with
      | x :: rest => s.callConsole (f x.toInt) rest
      | [] => .error .stuck) := by
  rw [agree.stack] at h
  match operands : s.stack with
  | [] =>
      rw [operands] at h
      exact of_trap h
  | x :: rest =>
      rw [operands] at h
      exact of_callConsole agree h

theorem newline (agree : Agrees names s m) :
    Follows names m [.const 10, .call .emit] (s.callConsole (.emit 10) s.stack) := by
  rw [Evaluation.callConsole, Console.callOn_newline, ← agree.console, ← agree.stack]
  exact ⟨_, rfl, agree.withConsole _ _⟩

/-- The code of an operation follows the operation. -/
theorem of_standard {w : Word} {code : List Text} {is : List Wat.Instruction}
    (agree : Agrees names s m) (found : Vocabulary.standard[w]? = some code)
    (decoded : (code.map fun t => "    ".toList ++ t).mapM Wat.Instruction.ofLine? = some is) :
    Follows names m is (s.step w) := by
  have numeral := Vocabulary.isNumeral_eq_false_of_standard found
  rcases Vocabulary.standard_cases found with
    ⟨rfl, rfl⟩ | ⟨rfl, rfl⟩ | ⟨rfl, rfl⟩ | ⟨rfl, rfl⟩ | ⟨rfl, rfl⟩ | ⟨rfl, rfl⟩
  · obtain rfl : [.const 10, .call .emit] = is := Option.some.inj decoded
    rw [Evaluation.step_of_operation? numeral rfl]
    exact newline agree
  · obtain rfl : [.call .input] = is := Option.some.inj decoded
    rw [Evaluation.step_of_operation? numeral rfl, ← agree.stack]
    exact of_callConsole agree rfl
  · obtain rfl : [.call .emit] = is := Option.some.inj decoded
    rw [Evaluation.step_of_operation? numeral rfl]
    exact of_output agree rfl
  · obtain rfl : [.call .print] = is := Option.some.inj decoded
    rw [Evaluation.step_of_operation? numeral rfl]
    exact of_output agree rfl
  · obtain rfl : [.add] = is := Option.some.inj decoded
    rw [Evaluation.step_of_operation? numeral rfl]
    exact of_binary agree rfl
  · obtain rfl : [.mul] = is := Option.some.inj decoded
    rw [Evaluation.step_of_operation? numeral rfl]
    exact of_binary agree rfl

/-- The translation of a word follows the word. -/
theorem of_translates {w : Word} {ls : List Text} {is : List Wat.Instruction}
    (agree : Agrees names s m) (h : Word.Translates .standard w ls)
    (decoded : ls.mapM Wat.Instruction.ofLine? = some is)
    (declared : ∀ x, Word.Uses .standard w x → x ∈ names) : Follows names m is (s.step w) := by
  cases h with
  | numeral numeral =>
      obtain ⟨k, value⟩ := Option.isSome_iff_exists.mp numeral
      rw [List.mapM_cons, List.mapM_nil, Wat.ofLine?_const] at decoded
      cases literal : Wat.literal? w with
      | none =>
          rw [literal] at decoded
          cases decoded
      | some n =>
          rw [literal] at decoded
          cases decoded
          rw [Evaluation.step_of_value? value, ← Wat.literal?_eq_ofInt literal value, ← agree.stack]
          exact of_step rfl (agree.withStack _)
  | operation found => exact of_standard agree found decoded
  | fetch var =>
      obtain rfl : [.get w] = is := Option.some.inj decoded
      have mem := declared w (Word.uses_standard_iff.mpr ⟨var, Or.inl rfl⟩)
      rw [Evaluation.step_of_isVariable var, ← agree.stack]
      refine of_step ?_ (agree.withStack _)
      rw [Wat.Machine.step, agree.declared w mem]
  | @store x var =>
      obtain rfl : [.set x] = is := Option.some.inj decoded
      have mem := declared x (Word.uses_standard_iff.mpr ⟨var, Or.inr rfl⟩)
      have known : m.locals.contains x = true := by
        rw [Std.ExtTreeMap.contains_eq_isSome_getElem?, agree.declared x mem, Option.isSome_some]
      rw [Evaluation.step_mark var]
      cases operands : s.stack with
      | nil =>
          refine of_trap ?_
          rw [Wat.Machine.step, agree.stack, operands]
      | cons n rest =>
          refine of_step ?_ (agree.insert mem rest n)
          rw [Wat.Machine.step, agree.stack, operands]
          exact if_pos known

end Follows

/-! ## Whole runs -/

/-- The code of a list of words ends as the words do. -/
theorem run_follows {names : List Text} {ws : List Word} {ts : List (List Text)}
    {body : List Wat.Instruction} (translated : List.Forall₂ (Word.Translates .standard) ws ts)
    (decoded : ts.flatten.mapM Wat.Instruction.ofLine? = some body)
    (declared : ∀ w ∈ ws, ∀ x, Word.Uses .standard w x → x ∈ names)
    {s : Evaluation} {m : Wat.Machine} (agree : Agrees names s m) :
    Agrees names (s.run ws).1 (m.run body).1 ∧ (m.run body).2 = (s.run ws).2 := by
  induction translated generalizing body s m with
  | nil =>
      cases decoded
      exact ⟨agree, rfl⟩
  | @cons w ls ws ts hw _ ih =>
      obtain ⟨here, later⟩ := List.forall_mem_cons.mp declared
      rw [List.flatten_cons, List.mapM_append] at decoded
      obtain ⟨block, decodedHere, decoded⟩ := Option.bind_eq_some_iff.mp decoded
      obtain ⟨rest, decodedLater, decoded⟩ := Option.bind_eq_some_iff.mp decoded
      cases decoded
      have follows := Follows.of_translates agree hw decodedHere here
      rw [Evaluation.run, Wat.Machine.run_append]
      cases stepped : s.step w with
      | error trap =>
          rw [stepped] at follows
          rw [show m.run block = (m, some trap) from follows]
          exact ⟨agree, rfl⟩
      | ok after =>
          rw [stepped] at follows
          obtain ⟨m', ran, agree'⟩ := follows
          rw [ran]
          exact ih decodedLater later agree'

namespace Wat

theorem exists_instructions {w : Word} {ls : List Text} (h : Word.Translates .standard w ls)
    (literal : Numeral.isNumeral w = true → (literal? w).isSome = true) :
    ∃ is, ls.mapM Instruction.ofLine? = some is := by
  cases h with
  | numeral numeral =>
      obtain ⟨n, hn⟩ := Option.isSome_iff_exists.mp (literal numeral)
      refine ⟨[.const n], ?_⟩
      rw [List.mapM_cons, List.mapM_nil, ofLine?_const, hn]
      rfl
  | operation found =>
      rcases Vocabulary.standard_cases found with
        ⟨_, rfl⟩ | ⟨_, rfl⟩ | ⟨_, rfl⟩ | ⟨_, rfl⟩ | ⟨_, rfl⟩ | ⟨_, rfl⟩ <;> exact ⟨_, rfl⟩
  | fetch _ => exact ⟨[.get w], rfl⟩
  | @store x _ => exact ⟨[.set x], rfl⟩

/-- The code of words whose numerals are literals can be read back. -/
theorem exists_body {ws : List Word} {ts : List (List Text)}
    (translated : List.Forall₂ (Word.Translates .standard) ws ts)
    (literals : ∀ w ∈ ws, Numeral.isNumeral w = true → (literal? w).isSome = true) :
    ∃ body, ts.flatten.mapM Instruction.ofLine? = some body := by
  induction translated with
  | nil => exact ⟨[], rfl⟩
  | cons hw _ ih =>
      obtain ⟨here, later⟩ := List.forall_mem_cons.mp literals
      obtain ⟨is, his⟩ := exists_instructions hw here
      obtain ⟨body, hbody⟩ := ih later
      refine ⟨is ++ body, ?_⟩
      rw [List.flatten_cons, List.mapM_append, his, hbody]
      rfl

theorem newline_not_mem_of_grammatical {w : Word} (h : Word.Grammatical .standard w)
    (literal : Numeral.isNumeral w = true → (literal? w).isSome = true) : '\n' ∉ w := by
  obtain ⟨ls, translated⟩ := h
  cases translated with
  | numeral numeral =>
      obtain ⟨n, hn⟩ := Option.isSome_iff_exists.mp (literal numeral)
      exact newline_not_mem_of_literal? hn
  | operation found =>
      rcases Vocabulary.standard_cases found with
        ⟨rfl, _⟩ | ⟨rfl, _⟩ | ⟨rfl, _⟩ | ⟨rfl, _⟩ | ⟨rfl, _⟩ | ⟨rfl, _⟩ <;> decide
  | fetch var => exact Word.newline_not_mem_of_isVariable var
  | store var =>
      rw [List.mem_append, not_or]
      exact ⟨Word.newline_not_mem_of_isVariable var, by decide⟩

end Wat

namespace Compiler

/-- Words and the module they compile to run alike.  Wherever code is generated for the words
and their numerals are literals of the text format, the module is there and can be read, and
on any input it ends with the stack, the variables and the console that the words end with,
and at the same trap if they trap. -/
theorem compiled_run_agrees (ws : List Word) (stdin : Text)
    (accepted : (Code.generate .standard ws).error? = none)
    (literals : ∀ w ∈ ws, Numeral.isNumeral w = true → (Wat.literal? w).isSome = true) :
    ∃ text module, compileWords .standard ws = .ok text ∧ Wat.Module.read? text = some module ∧
      let words := Evaluation.run { console := Console.start stdin } ws
      let code := module.run (Console.start stdin)
      code.1.stack = words.1.stack ∧ (∀ x, code.1.locals.getD x 0 = words.1.value x) ∧
        code.1.console = words.1.console ∧ code.2 = words.2 := by
  obtain ⟨ts, translated, _⟩ := Code.exists_translations accepted
  obtain ⟨names, found, compiled⟩ := compileWords_of_translates translated
  obtain ⟨body, decoded⟩ := Wat.exists_body translated literals
  have grammatical := Code.generate_error?_eq_none_iff.mp accepted
  have noNewline := Wat.newline_not_mem_of_translations translated
    fun w mem => Wat.newline_not_mem_of_grammatical (grammatical w mem) (literals w mem)
  have read := Wat.read?_module (Word.newline_not_mem_of_variablesIn found) noNewline
    (Wat.isDeclaration_of_translations translated) decoded
  have start := Agrees.start (Word.nodup_of_variablesIn found) body (Console.start stdin)
  obtain ⟨agree, trap⟩ := run_follows translated decoded
    (fun w mem x uses => Word.mem_of_uses found mem uses) start
  exact ⟨_, ⟨names, body⟩, compiled, read, agree.stack, agree.getD_locals, agree.console, trap⟩

/-- The words `4294967295 x! x 2 + . nl x *` wrap around, write a line, and are stuck at the
product. -/
theorem compiled_run_of_small_program :
    let ws := ["4294967295", "x!", "x", "2", "+", ".", "nl", "x", "*"].map String.toList
    ∃ text module, compileWords .standard ws = .ok text ∧ Wat.Module.read? text = some module ∧
      let code := module.run (Console.start [])
      code.1.stack = [0xFFFFFFFF] ∧ code.1.locals.getD "x".toList 0 = 0xFFFFFFFF ∧
        code.1.console.written = "1 \n".toList ∧ code.2 = some .stuck := by
  intro ws
  obtain ⟨text, module, compiled, read, stack, value, console, trap⟩ :=
    compiled_run_agrees ws [] (by decide +kernel) (by decide +kernel)
  refine ⟨text, module, compiled, read, ?_, ?_, ?_, ?_⟩
  · rw [stack]
    decide +kernel
  · rw [value]
    decide +kernel
  · rw [console]
    decide +kernel
  · rw [trap]
    decide +kernel

end Compiler

end TinyForth
