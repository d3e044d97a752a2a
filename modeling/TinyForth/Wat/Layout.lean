import TinyForth.Text.Basic

/-!
# The layout of a module

The compiler writes a WebAssembly module in the text format.  The module has a fixed
opening, which imports the three console functions and begins the exported function, and
a fixed closing.  Between them stand the declarations of the locals and then the
instructions, a line each and all at one indentation.

The order of the declarations has no meaning.  `sortDeclarations` puts those right after
the opening in ascending order, which gives modules that differ only in that order the
same text.
-/

namespace TinyForth.Wat

/-- What every module begins with: a heading, the three imports, and the first line of the
function. -/
def opening : Text := Text.ofLines [
  ";; chiqui_forth compiler WAT output".toList,
  [],
  "(module".toList,
  "  (import \"forth\" \"emit\" (func $emit (param i32)))".toList,
  "  (import \"forth\" \"input\" (func $input (result i32)))".toList,
  "  (import \"forth\" \"print\" (func $print (param i32)))".toList,
  "  (func (export \"_start\")".toList]

/-- What every module ends with. -/
def closing : Text := Text.ofLines ["  )".toList, ")".toList]

/-- A line of the function: its text after the indentation. -/
def line (t : Text) : Text := "    ".toList ++ t

/-- The line that declares a local. -/
def declaration (x : Text) : Text := line ("(local $".toList ++ x ++ " i32)".toList)

/-- The line begins the way a declaration does. -/
def isDeclaration (l : Text) : Bool := (line "(local $".toList).isPrefixOf l

/-- The text with the declarations right after the opening in ascending order.  A text with
another opening is left as it is. -/
def sortDeclarations (t : Text) : Text :=
  let start := opening ++ ['\n']
  if start.isPrefixOf t then
    let ls := Text.pieces (t.drop start.length)
    start ++ Text.ofLines ((ls.takeWhile isDeclaration).mergeSort (fun a b => compare a b |>.isLE)
      ++ ls.dropWhile isDeclaration)
  else t

end TinyForth.Wat
