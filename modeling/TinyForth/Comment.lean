import TinyForth.Text.Basic

/-!
# Comments

A comment begins with the word `(` and ends with the next word `)`.  The marks are
words of their own, so they stand between blanks.  Comments do not nest: inside one, a
further `(` is a word like any other.  A comment that is never closed reaches to the end
of the program, and a `)` outside a comment is kept.
-/

namespace TinyForth.Comment

/-- The word that begins a comment. -/
def opening : Text := ['(']

/-- The word that ends a comment. -/
def closing : Text := [')']

/-- The words outside comments, when reading starts inside a comment or outside one. -/
def stripFrom : (inside : Bool) → List Text → List Text
  | _, [] => []
  | true, w :: ws => stripFrom (w != closing) ws
  | false, w :: ws => if w = opening then stripFrom true ws else w :: stripFrom false ws

/-- The words outside comments. -/
def strip (ws : List Text) : List Text := stripFrom false ws

example : strip ("1 ( a ( b ) 2 ) ( 3".toList.splitOn ' ') = ["1".toList, "2".toList, ")".toList] := by
  decide

end TinyForth.Comment
