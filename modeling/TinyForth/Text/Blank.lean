import TinyForth.Text.Basic

/-!
# Blanks and words

A blank separates words.  The class holds the white space of Unicode 14.0 and the
four information separators U+001C to U+001F.  A word of a text is a maximal run
of characters that are not blank, so `words` never gives an empty word.  A numeral
may stand between padding, which is the blanks without the four separators.
-/

namespace TinyForth.Text

/-- The blanks. -/
def blankRanges : CodeRanges := [
    (0x9, 0xD), (0x1C, 0x20), (0x85, 0x85), (0xA0, 0xA0), (0x1680, 0x1680), (0x2000, 0x200A),
    (0x2028, 0x2028), (0x2029, 0x2029), (0x202F, 0x202F), (0x205F, 0x205F), (0x3000, 0x3000)]

/-- The character is a blank. -/
def isBlank (c : Char) : Bool := blankRanges.has c

/-- The character is one of the four information separators. -/
def isSeparator (c : Char) : Bool := CodeRanges.has [(0x1C, 0x1F)] c

/-- The character may stand around a numeral. -/
def isPadding (c : Char) : Bool := isBlank c && !isSeparator c

/-- The maximal runs of characters that are not blank, in order. -/
def words (t : Text) : List Text := (t.splitOnP isBlank).filter (!·.isEmpty)

example : words "\t1 2\r\n+ ".toList = [['1'], ['2'], ['+']] := by decide

end TinyForth.Text
