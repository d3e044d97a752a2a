import Std.Data.ExtTreeMap
import TinyForth.Text.Basic

/-!
# Vocabularies

A vocabulary gives operation words their code, a list of instructions without
indentation.  It is an ordinary value that every pass takes as an argument, so two
passes see the same operations exactly when they are given the same vocabulary.  The
language itself is `Vocabulary.standard`.  A session may add words to it and take
words away.

Vocabularies are equal when they give every word the same code, whatever the order in
which the words were added.
-/

namespace TinyForth

/-- The operation words with their code. -/
abbrev Vocabulary := Std.ExtTreeMap Text (List Text)

namespace Vocabulary

/-- The operations of the language.  A newline is the code point 10, emitted. -/
def standard : Vocabulary := Std.ExtTreeMap.ofList [
  ("*".toList, ["i32.mul".toList]),
  ("+".toList, ["i32.add".toList]),
  (".".toList, ["call $print".toList]),
  ("emit".toList, ["call $emit".toList]),
  ("input".toList, ["call $input".toList]),
  ("nl".toList, ["i32.const 10".toList, "call $emit".toList])]

/-- The vocabulary with a word defined, in place of what it meant before. -/
def define (v : Vocabulary) (w : Text) (code : List Text) : Vocabulary := v.insert w code

/-- The vocabulary without a word. -/
def forget (v : Vocabulary) (w : Text) : Vocabulary := v.erase w

/-- The words of the vocabulary in ascending order. -/
def words (v : Vocabulary) : List Text := v.keys

end Vocabulary

end TinyForth
