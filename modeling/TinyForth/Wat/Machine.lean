import Std.Data.ExtTreeMap
import TinyForth.Wat.Module

/-!
# Running a module

A machine has a stack of cells, the declared locals with their values, and a console.  An
instruction needs its operands on the stack and its local among the declared ones, and a
call needs the console's consent.  At a trap the machine stays as it was before the
instruction.

`depth?` checks a function without running it.  It counts the cells on the stack from
instruction to instruction, and there is no count after an instruction that would pop more
than there are.  A function without parameters and results is accepted at the count zero.
-/

namespace TinyForth.Wat

/-- A running module. -/
structure Machine where
  /-- The operands, top first. -/
  stack : List Cell := []
  /-- The declared locals. -/
  locals : Std.ExtTreeMap Text Cell := ∅
  /-- The console. -/
  console : Console

namespace Machine

/-- The machine after a console call on the rest of its stack. -/
def callConsole (m : Machine) (c : Call) (rest : List Cell) : Except Trap Machine :=
  (m.console.callOn c rest).map fun (console, stack) => { m with console, stack }

/-- The machine after one instruction. -/
def step (m : Machine) : Instruction → Except Trap Machine
  | .const n => .ok { m with stack := n :: m.stack }
  | .add =>
      match m.stack with
      | y :: x :: rest => .ok { m with stack := (x + y) :: rest }
      | _ => .error .stuck
  | .mul =>
      match m.stack with
      | y :: x :: rest => .ok { m with stack := (x * y) :: rest }
      | _ => .error .stuck
  | .call .emit =>
      match m.stack with
      | x :: rest => m.callConsole (.emit x.toInt) rest
      | [] => .error .stuck
  | .call .print =>
      match m.stack with
      | x :: rest => m.callConsole (.print x.toInt) rest
      | [] => .error .stuck
  | .call .input => m.callConsole .input m.stack
  | .get x =>
      match m.locals[x]? with
      | some n => .ok { m with stack := n :: m.stack }
      | none => .error .stuck
  | .set x =>
      match m.stack with
      | n :: rest =>
          if m.locals.contains x then .ok { m with stack := rest, locals := m.locals.insert x n }
          else .error .stuck
      | [] => .error .stuck

/-- The machine after some instructions, and the trap it stopped at, if it did. -/
def run (m : Machine) : List Instruction → Machine × Option Trap
  | [] => (m, none)
  | i :: is =>
      match m.step i with
      | .error trap => (m, some trap)
      | .ok after => after.run is

end Machine

/-- The machine a module starts in.  Every declared local is zero. -/
def Module.start (module : Module) (console : Console) : Machine :=
  { locals := Std.ExtTreeMap.ofList (module.locals.map fun x => (x, (0 : Cell))), console }

/-- The machine after the module's function, and the trap it stopped at, if it did. -/
def Module.run (module : Module) (console : Console) : Machine × Option Trap :=
  (module.start console).run module.body

/-! ## The stack check -/

/-- How many cells an instruction pops. -/
def Instruction.pops : Instruction → Nat
  | .add | .mul => 2
  | .call .emit | .call .print | .set _ => 1
  | .const _ | .call .input | .get _ => 0

/-- How many cells an instruction pushes. -/
def Instruction.pushes : Instruction → Nat
  | .add | .mul | .const _ | .call .input | .get _ => 1
  | .call .emit | .call .print | .set _ => 0

/-- The number of cells on the stack after some instructions, or `none` if one of them would
pop more than there are. -/
def depth? : (depth : Nat) → List Instruction → Option Nat
  | depth, [] => some depth
  | depth, i :: is => if i.pops ≤ depth then depth? (depth - i.pops + i.pushes) is else none

end TinyForth.Wat
