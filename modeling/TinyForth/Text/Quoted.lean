import TinyForth.Text.Printing

/-!
# Quoted texts

A file name in a message is quoted.  The mark is a single quote, or a double quote
if the name holds a single quote and no double one.  The mark and the backslash are
written after a backslash, a newline, a tab and a carriage return by their letters,
and any other character that does not print by its code point in hexadecimal, with
as few of the widths two, four and eight as will do.
-/

namespace TinyForth.Text

/-- The mark a text is quoted with. -/
def quoteMark (t : Text) : Char := if t.contains '\'' && !t.contains '"' then '"' else '\''

/-- One character between quotes of the given mark. -/
def escape (mark c : Char) : Text :=
  if c = mark ∨ c = '\\' then ['\\', c]
  else if c = '\n' then ['\\', 'n']
  else if c = '\t' then ['\\', 't']
  else if c = '\r' then ['\\', 'r']
  else if isPrinting c then [c]
  else if c.toNat < 0x100 then '\\' :: 'x' :: padded 16 2 c.toNat
  else if c.toNat < 0x10000 then '\\' :: 'u' :: padded 16 4 c.toNat
  else '\\' :: 'U' :: padded 16 8 c.toNat

/-- The text between quotes, each character escaped where it has to be. -/
def quoted (t : Text) : Text := quoteMark t :: t.flatMap (escape (quoteMark t)) ++ [quoteMark t]

end TinyForth.Text
