import Mathlib.Algebra.BigOperators.Group.List.Basic
import TinyForth.Proofs.Simulation

/-!
# The stack check and the discipline of words

The compiler writes code for any list of words of the language, also for one that takes
operands off an empty stack.  Whether the function it writes passes the stack check is
decided by the words alone.  Each word needs some operands and makes the stack grow or
shrink (`Word.needs`, `Word.growth`).  Words are disciplined if every word finds its operands
after the words before it (`Word.Disciplined`), and the function passes from one depth to
another exactly if the words are disciplined between these depths (`depth?_eq_some_iff`).  One
word may be two instructions, and then the check also looks in between (`Realizes`).

The check is sound.  An instruction that finds its operands and its local does its work and
leaves the stack as deep as the check counted, or the console refuses its call (`step_keeps`).
So a function that passes is never stuck (`run_keeps`).

The check does not look at constants.  A numeral of the language need not be a literal of the
text format, so lines are read here with any rule for what their constants stand for.
-/

namespace TinyForth

/-! ## What a word does to the stack -/

namespace Word

/-- How many operands a word needs. -/
def needs (w : Word) : Nat :=
  if w = "+".toList ∨ w = "*".toList then 2
  else if w = ".".toList ∨ w = "emit".toList ∨ w.target?.isSome = true then 1
  else 0

/-- By how many cells the stack is higher after a word. -/
def growth (w : Word) : Int :=
  if w = "+".toList ∨ w = "*".toList ∨ w = ".".toList ∨ w = "emit".toList ∨
    w.target?.isSome = true then -1
  else if w = "nl".toList then 0
  else 1

/-- By how many cells the stack is higher after some words. -/
def growthOf : List Word → Int
  | [] => 0
  | w :: ws => w.growth + growthOf ws

/-- Between these depths of the stack, every word finds its operands after the words before
it. -/
structure Disciplined (first last : Nat) (ws : List Word) : Prop where
  operands : ∀ before w, before ++ [w] <+: ws → (w.needs : Int) ≤ first + growthOf before
  net : first + growthOf ws = last

@[simp] theorem growthOf_nil : growthOf [] = 0 := rfl

@[simp] theorem growthOf_cons (w : Word) (ws : List Word) :
    growthOf (w :: ws) = w.growth + growthOf ws := rfl

theorem disciplined_nil_iff {first last : Nat} : Disciplined first last [] ↔ first = last := by
  constructor
  · intro disciplined
    have net := disciplined.net
    simp only [growthOf_nil] at net
    omega
  · rintro rfl
    refine ⟨?_, by simp⟩
    intro before w front
    simp at front

/-- The first word finds its operands on the stack as it is, and the others after it. -/
theorem disciplined_cons_iff {first next last : Nat} {w : Word} {ws : List Word}
    (grows : (next : Int) = first + w.growth) :
    Disciplined first last (w :: ws) ↔ w.needs ≤ first ∧ Disciplined next last ws := by
  constructor
  · intro disciplined
    have here := disciplined.operands [] w (by simp)
    simp only [growthOf_nil] at here
    refine ⟨by omega, ?_, ?_⟩
    · intro before w' front
      have later := disciplined.operands (w :: before) w' (by simpa using front)
      rw [growthOf_cons] at later
      omega
    · have net := disciplined.net
      rw [growthOf_cons] at net
      omega
  · rintro ⟨here, later⟩
    refine ⟨?_, ?_⟩
    · intro before w' front
      cases before with
      | nil =>
          obtain rfl : w' = w := by simpa using front
          simp only [growthOf_nil]
          omega
      | cons b before =>
          obtain ⟨rfl, tail⟩ : b = w ∧ before ++ [w'] <+: ws := by simpa using front
          have operands := later.operands before w' tail
          rw [growthOf_cons]
          omega
    · have net := later.net
      rw [growthOf_cons]
      omega

/-- A word never takes more cells off than it needs. -/
theorem neg_needs_le_growth (w : Word) : -(w.needs : Int) ≤ w.growth := by
  unfold needs growth
  split_ifs <;> simp_all

/-- Numerals and variables need nothing and push one cell. -/
theorem effect_of_not_operation {w : Word} (missing : Vocabulary.standard[w]? = none)
    (unmarked : w.target? = none) : w.needs = 0 ∧ w.growth = 1 := by
  obtain ⟨nl, _, emit, dot, plus, times⟩ := Vocabulary.standard_eq_none_iff.mp missing
  simp_all [needs, growth]

/-- A store takes one operand off. -/
theorem effect_mark (x : Word) : needs (x ++ ['!']) = 1 ∧ growth (x ++ ['!']) = -1 := by
  have plus : x ++ ['!'] ≠ "+".toList := fun same => by simpa using congrArg List.getLast? same
  have times : x ++ ['!'] ≠ "*".toList := fun same => by simpa using congrArg List.getLast? same
  simp_all [needs, growth]

theorem standard_eq_none_of_isNumeral {w : Word} (h : Numeral.isNumeral w = true) :
    Vocabulary.standard[w]? = none := by
  cases found : Vocabulary.standard[w]? with
  | none => rfl
  | some code =>
      rw [Vocabulary.isNumeral_eq_false_of_standard found] at h
      cases h

theorem target?_eq_none_of_isNumeral {w : Word} (h : Numeral.isNumeral w = true) :
    w.target? = none := by
  cases mark : w.target? with
  | none => rfl
  | some x =>
      rw [target?_eq_some_iff.mp mark, isNumeral_mark] at h
      cases h

end Word

/-! ## The instructions of a word -/

namespace Wat

/-- The instruction of a line, with a rule for what its constant stands for. -/
def Instruction.ofLineBy (value : Text → Cell) (l : Text) : Option Instruction :=
  match (line "i32.const ".toList).isPrefixOf? l with
  | some t => some (.const (value t))
  | none => Instruction.ofLine? l

/-- A line that can be read is read so by the rule that the constants are literals. -/
theorem ofLineBy_of_ofLine? {value : Text → Cell}
    (literals : ∀ t n, literal? t = some n → value t = n) {l : Text} {i : Instruction}
    (h : Instruction.ofLine? l = some i) : Instruction.ofLineBy value l = some i := by
  rw [Instruction.ofLineBy]
  split
  next t found =>
    rw [← List.isPrefixOf?_eq_some_iff_append_eq.mp found,
      show line "i32.const ".toList = "    i32.const ".toList from rfl, ofLine?_const] at h
    obtain ⟨n, hn, rfl⟩ := Option.map_eq_some_iff.mp h
    rw [literals t n hn]
  next => exact h

theorem mapM_ofLineBy {value : Text → Cell}
    (literals : ∀ t n, literal? t = some n → value t = n) {ls : List Text}
    {body : List Instruction} (h : ls.mapM Instruction.ofLine? = some body) :
    ls.mapM (Instruction.ofLineBy value) = some body := by
  induction ls generalizing body with
  | nil => exact h
  | cons l ls ih =>
      rw [List.mapM_cons] at h ⊢
      obtain ⟨i, hi, h⟩ := Option.bind_eq_some_iff.mp h
      obtain ⟨rest, hrest, h⟩ := Option.bind_eq_some_iff.mp h
      cases h
      rw [ofLineBy_of_ofLine? literals hi, ih hrest]
      rfl

theorem depth?_append (depth : Nat) (is js : List Instruction) :
    depth? depth (is ++ js) = (depth? depth is).bind fun after => depth? after js := by
  induction is generalizing depth with
  | nil => rfl
  | cons i is ih =>
      rw [List.cons_append, depth?, depth?]
      split
      · exact ih _
      · rfl

/-- The instructions change the depth of the stack as the word does, and use no local that
the word does not use. -/
structure Realizes (w : Word) (is : List Instruction) : Prop where
  depth : ∀ d : Nat, depth? d is = if w.needs ≤ d then some (d + w.growth).toNat else none
  locals : ∀ i ∈ is, ∀ x, i.local? = some x → Word.Uses .standard w x

/-- One instruction realizes a word that pops and pushes as it does. -/
theorem Realizes.single {w : Word} {i : Instruction} (pops : w.needs = i.pops)
    (grows : w.growth = i.pushes - i.pops)
    (locals : ∀ x, i.local? = some x → Word.Uses .standard w x) : Realizes w [i] := by
  refine ⟨?_, by simpa using locals⟩
  intro d
  simp only [depth?, pops, grows]
  split
  · congr 1
    omega
  · rfl

theorem Realizes.newline (n : Cell) : Realizes "nl".toList [.const n, .call .emit] := by
  refine ⟨?_, by simp [Instruction.local?]⟩
  intro d
  rw [show Word.needs "nl".toList = 0 by decide, show Word.growth "nl".toList = 0 by decide]
  simp [depth?, Instruction.pops, Instruction.pushes]

/-- Every word of the language is realized by the instructions it is written as. -/
theorem exists_realizes (value : Text → Cell) {w : Word} {ls : List Text}
    (h : Word.Translates .standard w ls) :
    ∃ is, ls.mapM (Instruction.ofLineBy value) = some is ∧ Realizes w is := by
  cases h with
  | numeral numeral =>
      have effect := Word.effect_of_not_operation (Word.standard_eq_none_of_isNumeral numeral)
        (Word.target?_eq_none_of_isNumeral numeral)
      exact ⟨[.const (value w)], rfl, .single effect.1 effect.2 (by simp [Instruction.local?])⟩
  | operation found =>
      rcases Vocabulary.standard_cases found with
        ⟨rfl, rfl⟩ | ⟨rfl, rfl⟩ | ⟨rfl, rfl⟩ | ⟨rfl, rfl⟩ | ⟨rfl, rfl⟩ | ⟨rfl, rfl⟩
      · exact ⟨[.const (value "10".toList), .call .emit], rfl, .newline _⟩
      · exact ⟨[.call .input], rfl, .single rfl rfl (by simp [Instruction.local?])⟩
      · exact ⟨[.call .emit], rfl, .single rfl rfl (by simp [Instruction.local?])⟩
      · exact ⟨[.call .print], rfl, .single rfl rfl (by simp [Instruction.local?])⟩
      · exact ⟨[.add], rfl, .single rfl rfl (by simp [Instruction.local?])⟩
      · exact ⟨[.mul], rfl, .single rfl rfl (by simp [Instruction.local?])⟩
  | fetch var =>
      obtain ⟨shape, missing⟩ := Word.isVariable_eq_true_iff.mp var
      have effect := Word.effect_of_not_operation missing
        (Word.target?_eq_none (Word.mark_not_mem_of_hasNameShape shape))
      refine ⟨[.get w], rfl, .single effect.1 effect.2 ?_⟩
      rintro x ⟨⟩
      exact Word.uses_standard_iff.mpr ⟨var, Or.inl rfl⟩
  | @store x var =>
      have effect := Word.effect_mark x
      refine ⟨[.set x], rfl, .single effect.1 effect.2 ?_⟩
      rintro y ⟨⟩
      exact Word.uses_standard_iff.mpr ⟨var, Or.inr rfl⟩

/-- The code of words passes the check between two depths exactly if the words are disciplined
between them.  It uses the locals that the words use. -/
theorem depth?_eq_some_iff (value : Text → Cell) {ws : List Word} {ts : List (List Text)}
    (translated : List.Forall₂ (Word.Translates .standard) ws ts) :
    ∃ body, ts.flatten.mapM (Instruction.ofLineBy value) = some body ∧
      (∀ first last, depth? first body = some last ↔ Word.Disciplined first last ws) ∧
      ∀ i ∈ body, ∀ x, i.local? = some x → ∃ w ∈ ws, Word.Uses .standard w x := by
  induction translated with
  | nil => exact ⟨[], rfl, by simp [depth?, Word.disciplined_nil_iff], by simp⟩
  | @cons w ls ws ts hw _ ih =>
      obtain ⟨block, decodedHere, realizes⟩ := exists_realizes value hw
      obtain ⟨rest, decodedLater, disciplined, locals⟩ := ih
      refine ⟨block ++ rest, ?_, ?_, ?_⟩
      · rw [List.flatten_cons, List.mapM_append, decodedHere, decodedLater]
        rfl
      · intro first last
        rw [depth?_append, realizes.depth]
        by_cases operands : w.needs ≤ first
        · have bound := w.neg_needs_le_growth
          have grows : ((first + w.growth).toNat : Int) = first + w.growth := by omega
          rw [if_pos operands, Option.bind_some, disciplined, Word.disciplined_cons_iff grows]
          exact (and_iff_right operands).symm
        · rw [if_neg operands]
          constructor
          · intro none
            cases none
          · intro whole
            have here := whole.operands [] w (by simp)
            simp only [Word.growthOf_nil] at here
            omega
      · intro i mem x hx
        rcases List.mem_append.mp mem with here | later
        · exact ⟨w, List.mem_cons_self .., realizes.locals i here x hx⟩
        · obtain ⟨w', mem', uses⟩ := locals i later x hx
          exact ⟨w', List.mem_cons_of_mem _ mem', uses⟩

/-! ## Soundness of the check -/

/-- The outcome is a machine with a stack of this depth and these locals, or a call that the
console refused. -/
def Keeps (names : List Text) (depth : Nat) : Except Trap Machine → Prop
  | .ok m => m.stack.length = depth ∧ ∀ x ∈ names, m.locals.contains x = true
  | .error trap => ∃ e, trap = .console e

variable {names : List Text} {m : Machine}

/-- Only a call that reads a number pushes one. -/
theorem callConsole_keeps (known : ∀ x ∈ names, m.locals.contains x = true) (c : Call)
    (rest : List Cell) :
    Keeps names (rest.length + if c = .input then 1 else 0) (m.callConsole c rest) := by
  rw [Machine.callConsole, Console.callOn]
  cases c with
  | emit code =>
      simp only [Console.perform, Console.call]
      cases Console.character code with
      | error e => exact ⟨e, rfl⟩
      | ok _ => exact ⟨by simp, known⟩
  | print n => exact ⟨by simp, known⟩
  | input =>
      simp only [Console.perform, Console.call]
      cases m.console.unread.nextLine? with
      | none => exact ⟨.endOfInput, rfl⟩
      | some _ => exact ⟨by simp, known⟩

theorem exists_two_operands {stack : List Cell} (h : 2 ≤ stack.length) :
    ∃ y x rest, stack = y :: x :: rest := by
  obtain ⟨y, tail, rfl⟩ := List.exists_cons_of_length_pos (Nat.zero_lt_of_lt h)
  obtain ⟨x, rest, rfl⟩ := List.exists_cons_of_length_pos (Nat.le_of_succ_le_succ h)
  exact ⟨y, x, rest, rfl⟩

/-- An instruction that finds its operands and its local is not stuck, and leaves the depth
that the check counts. -/
theorem step_keeps {i : Instruction} (known : ∀ x ∈ names, m.locals.contains x = true)
    (operands : i.pops ≤ m.stack.length) (declared : ∀ x, i.local? = some x → x ∈ names) :
    Keeps names (m.stack.length - i.pops + i.pushes) (m.step i) := by
  cases i with
  | const n => exact ⟨rfl, known⟩
  | add =>
      obtain ⟨y, x, rest, h⟩ := exists_two_operands operands
      rw [Machine.step, h]
      exact ⟨rfl, known⟩
  | mul =>
      obtain ⟨y, x, rest, h⟩ := exists_two_operands operands
      rw [Machine.step, h]
      exact ⟨rfl, known⟩
  | call function =>
      cases function with
      | emit =>
          obtain ⟨x, rest, h⟩ := List.exists_cons_of_length_pos operands
          rw [Machine.step, h]
          exact callConsole_keeps known (.emit x.toInt) rest
      | input => exact callConsole_keeps known .input m.stack
      | print =>
          obtain ⟨x, rest, h⟩ := List.exists_cons_of_length_pos operands
          rw [Machine.step, h]
          exact callConsole_keeps known (.print x.toInt) rest
  | get x =>
      have mem := known x (declared x rfl)
      rw [Std.ExtTreeMap.contains_eq_isSome_getElem?] at mem
      obtain ⟨n, hn⟩ := Option.isSome_iff_exists.mp mem
      rw [Machine.step, hn]
      exact ⟨rfl, known⟩
  | set x =>
      obtain ⟨n, rest, h⟩ := List.exists_cons_of_length_pos operands
      simp only [Machine.step, h, if_pos (known x (declared x rfl))]
      refine ⟨rfl, ?_⟩
      intro y mem
      rw [Std.ExtTreeMap.contains_insert, known y mem, Bool.or_true]

/-- A run of code that passes the check is not stuck.  It comes to the depth that the check
counts, unless the console refuses a call on the way. -/
theorem run_keeps {body : List Instruction} {last : Nat}
    (known : ∀ x ∈ names, m.locals.contains x = true)
    (declared : ∀ i ∈ body, ∀ x, i.local? = some x → x ∈ names)
    (passes : depth? m.stack.length body = some last) :
    ((m.run body).2 = none ∧ (m.run body).1.stack.length = last) ∨
      ∃ e, (m.run body).2 = some (.console e) := by
  induction body generalizing m with
  | nil => exact Or.inl ⟨rfl, Option.some.inj passes⟩
  | cons i body ih =>
      obtain ⟨here, later⟩ := List.forall_mem_cons.mp declared
      rw [depth?] at passes
      split at passes
      next operands =>
        have keeps := step_keeps known operands here
        rw [Machine.run]
        cases stepped : m.step i with
        | error trap =>
            rw [stepped] at keeps
            obtain ⟨e, rfl⟩ := keeps
            exact Or.inr ⟨e, rfl⟩
        | ok after =>
            rw [stepped] at keeps
            obtain ⟨depth, known⟩ := keeps
            exact ih known later (by rw [depth, passes])
      next => cases passes

end Wat

/-! ## The check of a compiled function -/

namespace Compiler

/-- The function that words are compiled to passes the stack check, from an empty stack to an
empty one, exactly if the words are disciplined.  A function that passes is never stuck, on
any input, and ends with an empty stack unless the console refuses a call.  This holds
whatever the constants stand for.  Where the numerals are literals and the constants stand for
what the literals say, it is the function that is read from the text of the module. -/
theorem stack_check_iff_disciplined (ws : List Word) (value : Text → Cell)
    (accepted : (Code.generate .standard ws).error? = none) :
    ∃ names body, Word.variablesIn .standard ws = .ok names ∧
      (Code.generate .standard ws).lines.mapM (Wat.Instruction.ofLineBy value) = some body ∧
      (Wat.depth? 0 body = some 0 ↔ Word.Disciplined 0 0 ws) ∧
      (Wat.depth? 0 body = some 0 → ∀ stdin,
        let ended := Wat.Module.run ⟨names, body⟩ (Console.start stdin)
        (ended.2 = none ∧ ended.1.stack = []) ∨ ∃ e, ended.2 = some (.console e)) ∧
      ((∀ w ∈ ws, Numeral.isNumeral w = true → (Wat.literal? w).isSome = true) →
        (∀ t n, Wat.literal? t = some n → value t = n) →
        ∃ text, compileWords .standard ws = .ok text ∧
          Wat.Module.read? text = some ⟨names, body⟩) := by
  obtain ⟨ts, translated, lines⟩ := Code.exists_translations accepted
  obtain ⟨names, found, compiled⟩ := compileWords_of_translates translated
  obtain ⟨body, decoded, disciplined, locals⟩ := Wat.depth?_eq_some_iff value translated
  refine ⟨names, body, found, lines ▸ decoded, disciplined 0 0, ?_, ?_⟩
  · intro passes stdin
    have start := Agrees.start (Word.nodup_of_variablesIn found) body (Console.start stdin)
    have known : ∀ x ∈ names,
        (Wat.Module.start ⟨names, body⟩ (Console.start stdin)).locals.contains x = true := by
      intro x mem
      rw [Std.ExtTreeMap.contains_eq_isSome_getElem?, start.declared x mem, Option.isSome_some]
    have declared : ∀ i ∈ body, ∀ x, i.local? = some x → x ∈ names := by
      intro i mem x hx
      obtain ⟨w, memW, uses⟩ := locals i mem x hx
      exact Word.mem_of_uses found memW uses
    refine (Wat.run_keeps known declared passes).imp_left ?_
    rintro ⟨ended, empty⟩
    exact ⟨ended, List.length_eq_zero_iff.mp empty⟩
  · intro literals agrees
    obtain ⟨read, decodedRead⟩ := Wat.exists_body translated literals
    obtain rfl : read = body :=
      Option.some.inj ((Wat.mapM_ofLineBy agrees decodedRead).symm.trans decoded)
    have grammatical := Code.generate_error?_eq_none_iff.mp accepted
    have noNewline := Wat.newline_not_mem_of_translations translated
      fun w mem => Wat.newline_not_mem_of_grammatical (grammatical w mem) (literals w mem)
    exact ⟨_, compiled, Wat.read?_module (Word.newline_not_mem_of_variablesIn found) noNewline
      (Wat.isDeclaration_of_translations translated) decodedRead⟩

/-- The words `input x! x x * . nl` are disciplined, and their module is never stuck. -/
theorem stack_check_of_square :
    let ws := ["input", "x!", "x", "x", "*", ".", "nl"].map String.toList
    Word.Disciplined 0 0 ws ∧ ∃ text module, compileWords .standard ws = .ok text ∧
      Wat.Module.read? text = some module ∧ ∀ stdin,
        let ended := module.run (Console.start stdin)
        (ended.2 = none ∧ ended.1.stack = []) ∨ ∃ e, ended.2 = some (.console e) := by
  intro ws
  let value : Text → Cell := fun t => (Wat.literal? t).getD 0
  obtain ⟨names, body, _, decoded, disciplined, sound, reads⟩ :=
    stack_check_iff_disciplined ws value (by decide +kernel)
  have code : (Code.generate .standard ws).lines.mapM (Wat.Instruction.ofLineBy value) =
      some [.call .input, .set ['x'], .get ['x'], .get ['x'], .mul, .call .print, .const 10,
        .call .emit] := by decide +kernel
  have passes : Wat.depth? 0 body = some 0 := by
    rw [← Option.some.inj (code.symm.trans decoded)]
    rfl
  have agrees : ∀ t n, Wat.literal? t = some n → value t = n := by
    intro t n literal
    simp [value, literal]
  obtain ⟨text, compiled, read⟩ := reads (by decide +kernel) agrees
  exact ⟨disciplined.mp passes, text, ⟨names, body⟩, compiled, read, sound passes⟩

end Compiler

end TinyForth
