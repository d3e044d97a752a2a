import TinyForth.Text.Basic

/-!
# Line ends

A text read from a file or from the standard input may end its lines with a line
feed, a carriage return, or the two together.  `unifyLineEnds` turns each of these
ends into one newline, and `nextLine?` then takes the lines off one by one.  A last
line needs no end, and an end at the very end of the text opens no further line.
-/

namespace TinyForth.Text

/-- Every line end as one newline. -/
def unifyLineEnds : Text → Text
  | [] => []
  | '\r' :: '\n' :: rest => '\n' :: unifyLineEnds rest
  | c :: rest => (if c = '\r' then '\n' else c) :: unifyLineEnds rest

/-- The first line, without its newline, and what comes after it. -/
def nextLine? : Text → Option (Text × Text)
  | [] => none
  | t => some (t.takeWhile (· != '\n'), (t.dropWhile (· != '\n')).drop 1)

example : unifyLineEnds "a\r\nb\rc\n\r".toList = "a\nb\nc\n\n".toList := by decide

example : nextLine? "\n7".toList = some ([], ['7']) ∧ nextLine? ['7'] = some (['7'], []) := by decide

end TinyForth.Text
