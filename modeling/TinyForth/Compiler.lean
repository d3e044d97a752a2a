import TinyForth.Code
import TinyForth.Comment
import TinyForth.Text.Line

/-!
# The compiler

From a source text to the text of a module.  The words of the source are taken without
its comments.  The variables are collected first, over all the words, and the code is
generated second, so an error of the first pass wins over any of the second.  A module
declares its variables in the order of the listing it is compiled with.
-/

namespace TinyForth.Compiler

/-- The words of a source text, comments included. -/
def sourceWords (source : Text) : List Word := source.unifyLineEnds.words

/-- The module of a list of words outside comments. -/
def compileWords (v : Vocabulary) (ws : List Word) (listing : Word.Listing := .ascending) :
    Except Word.Error Text :=
  match Word.variablesIn v ws listing with
  | .error e => .error e
  | .ok names =>
      match Code.generate v ws with
      | ⟨_, some e⟩ => .error e
      | ⟨lines, none⟩ =>
          .ok (Text.ofLines ([Wat.opening] ++ names.map Wat.declaration ++ lines ++ [Wat.closing]))

/-- The module of a source text, in the language's own vocabulary. -/
def compile (source : Text) (listing : Word.Listing := .ascending) : Except Word.Error Text :=
  compileWords .standard (Comment.strip (sourceWords source)) listing

end TinyForth.Compiler
