import TinyForth.FileTree
import TinyForth.Text.Utf8
import TinyForth.Word

/-!
# Failures

What can stop a command: a file that cannot be opened, a source that is not UTF-8, a word
without a meaning, or an argument that is not there.  The wording of each cause is that
of its own type.
-/

namespace TinyForth

/-- Why a command fails. -/
inductive Failure where
  /-- The command line has no such argument. -/
  | noArgument
  /-- A file cannot be opened. -/
  | file (error : FileTree.Error)
  /-- The source is not UTF-8. -/
  | encoding (fault : Utf8.Fault)
  /-- A word has no meaning. -/
  | word (error : Word.Error)
deriving DecidableEq, Repr

/-- The wording of a failure. -/
def Failure.message : Failure → Text
  | .noArgument => "list index out of range".toList
  | .file e => e.message
  | .encoding f => f.message
  | .word e => e.message

/-- How a command ends. -/
inductive Ending where
  /-- It did its work. -/
  | done
  /-- It gave a notice on the error stream and exit status 1. -/
  | refused (notice : Text)
  /-- It failed. -/
  | failed (failure : Failure)
deriving DecidableEq, Repr

/-- What a command wrote to the error stream. -/
def Ending.stderr : Ending → Text
  | .refused notice => notice ++ ['\n']
  | _ => []

end TinyForth
