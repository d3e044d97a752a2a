import TinyForth.Command.Compile

/-!
# The command line

`main` runs the compile command on real files.  It reads the source, hands its bytes to the
library, and writes the two outputs.  What can go wrong is told on the error stream, with
exit status 1.
-/

namespace TinyForth

/-- Tells what went wrong. -/
def complain (t : Text) : IO UInt32 := do
  IO.eprintln (String.ofList t)
  return 1

/-- Writes a module to a file. -/
def saveModule (root ext module : Text) : IO Unit :=
  IO.FS.writeBinFile (String.ofList (root ++ ext)) ⟨(Utf8.encode module).toArray⟩

/-- Compiles the source file of a name. -/
def compileFile (name : String) : IO UInt32 := do
  match ← (IO.FS.readBinFile name).toBaseIO with
  | .error (.noFileOrDirectory ..) => complain (Command.notFound name.toList)
  | .error e => complain (toString e).toList
  | .ok bytes =>
      match Command.wordsOfBytes bytes.toList >>= (Command.moduleOfWords ·) with
      | .error failure => complain failure.message
      | .ok module =>
          let root := FileName.root name.toList
          saveModule root Command.watExtension module
          saveModule root Command.wasmExtension module
          return 0

end TinyForth

/-- The compile command. -/
def main (args : List String) : IO UInt32 :=
  match args with
  | [name] => TinyForth.compileFile name
  | _ => TinyForth.complain TinyForth.Command.compileUsage
