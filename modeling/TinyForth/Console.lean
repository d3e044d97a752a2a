import TinyForth.Numeral
import TinyForth.Text.Line

/-!
# The console

A compiled program calls three functions of the console.  `emit` writes the character of a
code point, `print` writes a number and a space, and `input` reads a line and gives its
number.  A line that is no numeral gives zero, and the line is used up all the same.  At
the end of the input there is no line to read.

A call may fail.  A failed call writes nothing and reads nothing, and the calls after it
go on as if it had not been made.

The two streams of a console are of one kind.  The input is text in which a line feed, a
carriage return and the two together all end a line.  The output is strict UTF-8 and so
refuses surrogates.  The standard streams of a process may be set up otherwise.
-/

namespace TinyForth

/-- A call of a console function. -/
inductive Call where
  /-- Writes the character of a code point. -/
  | emit (code : Int)
  /-- Writes a number and a space. -/
  | print (number : Int)
  /-- Reads a line as a number. -/
  | input
deriving DecidableEq, Repr

/-- What the console has left to read and has written so far. -/
structure Console where
  /-- The input not yet read, its line ends unified. -/
  unread : Text
  /-- The output. -/
  written : Text := []
deriving DecidableEq, Repr

namespace Console

/-! ## Errors -/

/-- Why a call fails. -/
inductive Error where
  /-- The code does not fit a cell of 32 bits. -/
  | wideCode
  /-- The code is outside the range of code points. -/
  | noCodePoint
  /-- The code is a surrogate, which is no character. -/
  | surrogate (code : Nat)
  /-- There is no line left. -/
  | endOfInput
deriving DecidableEq, Repr

/-- The wording of an error. -/
def Error.message : Error → Text
  | .wideCode => "Python int too large to convert to C int".toList
  | .noCodePoint => "chr() arg not in range(0x110000)".toList
  | .surrogate code => "'utf-8' codec can't encode character '\\u".toList ++ Text.padded 16 4 code
      ++ "' in position 0: surrogates not allowed".toList
  | .endOfInput => "EOF when reading a line".toList

/-! ## Calls -/

/-- The module the functions belong to and their names. -/
def functions : Text × List Text :=
  ("forth".toList, ["emit".toList, "input".toList, "print".toList])

/-- What a call wrote, and what it returned or why it failed.  Only `input` returns a number. -/
structure Reply where
  /-- The text written by this call. -/
  out : Text := []
  /-- The result of the call. -/
  result : Except Error (Option Int) := .ok none

/-- A console that has the whole of an input still to read.  The input is read as a text stream
with universal line ends, whatever stream it comes from, and the output is strict UTF-8. -/
def start (stdin : Text) : Console := ⟨stdin.unifyLineEnds, []⟩

/-- The character of a code. -/
def character (code : Int) : Except Error Char :=
  if code < -0x80000000 ∨ 0x7FFFFFFF < code then .error .wideCode
  else if code < 0 ∨ 0x10FFFF < code then .error .noCodePoint
  else if 0xD800 ≤ code ∧ code ≤ 0xDFFF then .error (.surrogate code.toNat)
  else .ok (.ofNat code.toNat)

/-- The console after writing a text, which is also the reply. -/
def put (console : Console) (t : Text) : Console × Reply :=
  ({ console with written := console.written ++ t }, { out := t })

/-- The console after one call, and the reply to it.  Numbers of any length are printed, although
no more than `Numeral.maxDigits` digits are read.  A console that has this limit in both directions
fails to print a longer number. -/
def call (console : Console) : Call → Console × Reply
  | .emit code =>
      match character code with
      | .error e => (console, { result := .error e })
      | .ok c => console.put [c]
  | .print n => console.put (Numeral.render n ++ [' '])
  | .input =>
      match console.unread.nextLine? with
      | none => (console, { result := .error .endOfInput })
      | some (line, rest) =>
          ({ console with unread := rest }, { result := .ok (some ((Numeral.value? line).getD 0)) })

/-- The console after a call that succeeds, and the number it returned. -/
def perform (console : Console) (c : Call) : Except Error (Console × Option Int) :=
  let (after, reply) := console.call c
  reply.result.map fun n? => (after, n?)

/-- The console after some calls, and the reply to each. -/
def run (console : Console) : List Call → Console × List Reply
  | [] => (console, [])
  | c :: cs =>
      let (after, reply) := console.call c
      let (last, replies) := after.run cs
      (last, reply :: replies)

end Console

end TinyForth
