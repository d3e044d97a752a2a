import TinyForth.Console

/-!
# Cells and traps

A cell is a number of 32 bits, and arithmetic on cells wraps around.  The console takes
and gives integers.  A cell goes to it as a signed number, and a number from it becomes
the cell with the same low bits.

Running a program, from its words or from its code, stops early at a trap: an operand or a
local that is not there, or a call that the console refuses.
-/

namespace TinyForth

/-- A value of a running program. -/
abbrev Cell := BitVec 32

/-- Why a running program stops early. -/
inductive Trap where
  /-- An operand or a local is not there. -/
  | stuck
  /-- A console call failed. -/
  | console (error : Console.Error)
deriving DecidableEq, Repr

/-- The console and the stack after a call, the number it returned on top. -/
def Console.callOn (console : Console) (c : Call) (stack : List Cell) :
    Except Trap (Console × List Cell) :=
  match console.perform c with
  | .error e => .error (.console e)
  | .ok (after, n?) => .ok (after, n?.toList.map (BitVec.ofInt 32) ++ stack)

end TinyForth
