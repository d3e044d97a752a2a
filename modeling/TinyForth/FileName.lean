import TinyForth.Text.Utf8

/-!
# File names

A file name is a text whose parts are separated by slashes.  `splitExtension` cuts the
extension off its last part.  The extension starts at the last dot of that part, unless
only dots come before it there, so `.profile` has no extension and neither has `d.e/f`.

Names are limited in length, as a whole and in each part.  The limits count bytes.
-/

namespace TinyForth.FileName

/-- The parts between the slashes, empty ones included. -/
def parts (name : Text) : List Text := name.splitOn '/'

/-- The most bytes a name may have. -/
def maxBytes : Nat := 4095

/-- The most bytes a part of a name may have. -/
def maxPartBytes : Nat := 255

/-- The name has more bytes than a name may have. -/
def isTooLong (name : Text) : Bool := decide (maxBytes < (Utf8.encode name).length)

/-- The part has more bytes than a part may have. -/
def isPartTooLong (part : Text) : Bool := decide (maxPartBytes < (Utf8.encode part).length)

/-- The name without its extension, and the extension with its dot, or nothing. -/
def splitExtension (name : Text) : Text × Text :=
  let plain := fun c : Char => c != '.' && c != '/'
  match name.reverse.dropWhile plain with
  | '.' :: before =>
      if (before.takeWhile (· != '/')).any (· != '.') then
        (before.reverse, '.' :: (name.reverse.takeWhile plain).reverse)
      else (name, [])
  | _ => (name, [])

/-- The name without its extension. -/
def root (name : Text) : Text := (splitExtension name).1

example : splitExtension "d.e/a.b.c".toList = ("d.e/a.b".toList, ".c".toList) := by decide

example : splitExtension "d.e/..x".toList = ("d.e/..x".toList, []) := by decide

end TinyForth.FileName
