import TinyForth.Wat.Layout
import TinyForth.Word

/-!
# The code of a program

Every word has its lines, and the code of a program is the lines of its words one after
the other.  A word without a meaning ends the code.  What was generated before it stays,
so `generate` gives the lines together with the error, if there is one.
-/

namespace TinyForth

/-- The lines a meaning is written as. -/
def Word.Meaning.lines : Word.Meaning → List Text
  | .push numeral => [Wat.line ("i32.const ".toList ++ numeral)]
  | .operation code => code.map Wat.line
  | .fetch x => [Wat.line ("local.get $".toList ++ x)]
  | .store x => [Wat.line ("local.set $".toList ++ x)]

/-- Generated lines, and the error of the first word that has none. -/
structure Code where
  /-- The lines, up to the error. -/
  lines : List Text
  /-- Why there are no more of them. -/
  error? : Option Word.Error
deriving DecidableEq, Repr

namespace Code

/-- The code of a list of words. -/
def generate (v : Vocabulary) : List Word → Code
  | [] => ⟨[], none⟩
  | w :: ws =>
      match w.meaning v with
      | .error e => ⟨[], some e⟩
      | .ok m =>
          let rest := generate v ws
          ⟨m.lines ++ rest.lines, rest.error?⟩

end Code

end TinyForth
