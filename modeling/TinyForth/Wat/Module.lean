import TinyForth.Wat.Layout
import TinyForth.Wat.Literal

/-!
# Modules

What a module text says: the locals it declares and the instructions of its function.
`Module.read?` takes the text apart line by line.  It knows the fixed opening and closing,
the declarations between them, and the eight shapes an instruction line can have.
-/

namespace TinyForth.Wat

/-- A console function, as a module imports it. -/
inductive Import where
  /-- Writes a character. -/
  | emit
  /-- Reads a number. -/
  | input
  /-- Writes a number. -/
  | print
deriving DecidableEq, Repr

/-- An instruction of the function. -/
inductive Instruction where
  /-- Pushes a constant. -/
  | const (value : Cell)
  /-- Pops two cells and pushes their sum. -/
  | add
  /-- Pops two cells and pushes their product. -/
  | mul
  /-- Calls a console function. -/
  | call (function : Import)
  /-- Pushes the value of a local. -/
  | get (x : Text)
  /-- Pops a cell into a local. -/
  | set (x : Text)
deriving DecidableEq, Repr

/-- The instruction a text without indentation stands for. -/
def Instruction.read? (t : Text) : Option Instruction :=
  if t = "i32.add".toList then some .add
  else if t = "i32.mul".toList then some .mul
  else if t = "call $emit".toList then some (.call .emit)
  else if t = "call $input".toList then some (.call .input)
  else if t = "call $print".toList then some (.call .print)
  else if let some n := "i32.const ".toList.isPrefixOf? t then (literal? n).map .const
  else if let some x := "local.get $".toList.isPrefixOf? t then some (.get x)
  else if let some x := "local.set $".toList.isPrefixOf? t then some (.set x)
  else none

/-- The instruction of a line. -/
def Instruction.ofLine? (l : Text) : Option Instruction :=
  ((line []).isPrefixOf? l).bind Instruction.read?

/-- The local that a line declares. -/
def declared? (l : Text) : Option Text :=
  ((line "(local $".toList).isPrefixOf? l).bind fun x => " i32)".toList.isSuffixOf? x

/-- What a module text says. -/
structure Module where
  /-- The declared locals, in order. -/
  locals : List Text
  /-- The instructions of the function. -/
  body : List Instruction
deriving DecidableEq, Repr

/-- The module of the lines between the opening and the closing. -/
def Module.ofLines? (ls : List Text) : Option Module := do
  let locals ← (ls.takeWhile isDeclaration).mapM declared?
  let body ← (ls.dropWhile isDeclaration).mapM Instruction.ofLine?
  return { locals, body }

/-- The module a text stands for. -/
def Module.read? (t : Text) : Option Module := do
  let ls ← (Text.pieces opening).isPrefixOf? (Text.pieces t)
  Module.ofLines? (← (Text.pieces closing).isSuffixOf? ls)

end TinyForth.Wat
