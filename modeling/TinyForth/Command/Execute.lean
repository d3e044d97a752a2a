import TinyForth.Command.Compile
import TinyForth.Console

/-!
# The execute command

The command takes the name of a module file, loads the file's bytes, and runs the module's
start function against a console.  A module is known here by the console calls that its
start function makes.
-/

namespace TinyForth.Command

/-- The notice about a wrong number of arguments. -/
def executeUsage : Text := "Please specify the name of the WASM binary file.".toList

/-- A run of the execute command. -/
structure Execution where
  /-- The bytes of the module, once it is loaded. -/
  loaded? : Option (List UInt8) := none
  /-- The replies to the calls that were made. -/
  replies : List Console.Reply := []
  /-- What was written to the standard output. -/
  stdout : Text := []
  /-- How the command ends. -/
  ending : Ending

/-- The bytes of the module file that the command line names. -/
def loadModule (tree : FileTree) (args : List Text) : Except Ending (List UInt8) := do
  let name ← argument executeUsage args
  (tree.read name).mapError (.failed ∘ .file)

/-- The run of a module whose start function makes the given calls. -/
def execute (tree : FileTree) (args : List Text) (stdin : Text) (calls : List Call) : Execution :=
  match loadModule tree args with
  | .error ending => { ending }
  | .ok bytes =>
      let (console, replies) := (Console.start stdin).run calls
      { loaded? := some bytes, replies, stdout := console.written, ending := .done }

end TinyForth.Command
