import TinyForth.Cell

/-!
# Literals and identifiers

The two tokens of the text format that carry something over from a source.  The literal of
a 32 bit constant is an optional sign and groups of the digits `0` to `9` joined by single
underscores.  Without a sign it reaches up to `2 ^ 32 - 1`, with one it keeps to the range
of signed numbers.  An identifier is a dollar sign and one or more of the characters of
ASCII that are neither blanks nor punctuation of the format.
-/

namespace TinyForth.Wat

/-- The number of groups of digits joined by single underscores. -/
def unsigned? (t : Text) : Option Nat :=
  let groups := t.splitOn '_'
  if groups.all fun g => !g.isEmpty && g.all Char.isDigit then
    some (groups.flatten.foldl (fun n c => 10 * n + (c.toNat - '0'.toNat)) 0)
  else none

/-- The integer a literal denotes. -/
def literalValue? : Text → Option Int
  | '+' :: t => ((unsigned? t).map Int.ofNat).filter (· < 0x80000000)
  | '-' :: t => ((unsigned? t).map fun n => -Int.ofNat n).filter (-0x80000000 ≤ ·)
  | t => ((unsigned? t).map Int.ofNat).filter (· < 0x100000000)

/-- The cell a literal denotes. -/
def literal? (t : Text) : Option Cell := (literalValue? t).map (BitVec.ofInt 32)

/-- The character may stand in an identifier. -/
def isIdentifierChar (c : Char) : Bool :=
  decide (0x21 ≤ c.toNat) && decide (c.toNat ≤ 0x7E) && !"\"(),;[]\x7b\x7d".toList.contains c

/-- The text is an identifier. -/
def isIdentifier : Text → Bool
  | '$' :: x => !x.isEmpty && x.all isIdentifierChar
  | _ => false

example : literal? "-1".toList = some 0xFFFFFFFF ∧ literal? "4_294967296".toList = none := by decide

example : isIdentifier "$x1".toList = true ∧ isIdentifier "$é".toList = false := by decide

end TinyForth.Wat
