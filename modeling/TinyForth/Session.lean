import TinyForth.Command.Compile

/-!
# Sessions

A session runs the stages of the compiler one at a time, over state that it keeps between
them: the words read so far, the variables found in them, the lines generated, the
vocabulary and the files.  The vocabulary may be changed between stages.  A step that fails
keeps what it had done before it failed, and the session goes on.

A session has the standard toolchain: it finds variables in ascending order, and what it writes
as the binary format is the text format.
-/

namespace TinyForth

/-- The state of a session. -/
structure Session where
  /-- The words of the program. -/
  words : List Word := []
  /-- The variables last found. -/
  names : List Word := []
  /-- The lines of the module so far. -/
  lines : List Text := []
  /-- The operations in force. -/
  vocabulary : Vocabulary := .standard
  /-- The files written. -/
  files : FileTree := ∅

namespace Session

/-- One of the three lists a session keeps. -/
inductive Part where
  /-- The words of the program. -/
  | words
  /-- The variables last found. -/
  | names
  /-- The lines of the module so far. -/
  | lines
deriving DecidableEq, Repr

/-- A step of a session. -/
inductive Step where
  /-- Adds the words of a text. -/
  | read (source : Text)
  /-- Adds words as they are. -/
  | push (ws : List Word)
  /-- Takes the comments out of the words. -/
  | strip
  /-- Finds the variables of the words. -/
  | findVariables
  /-- Adds the declarations of the variables. -/
  | declare
  /-- Adds the code of the words. -/
  | generate
  /-- Adds the opening of a module. -/
  | openModule
  /-- Adds the closing of a module. -/
  | closeModule
  /-- Gives a word code of its own. -/
  | define (word : Text) (code : List Text)
  /-- Takes a word out of the vocabulary. -/
  | forget (word : Text)
  /-- Empties some of the lists. -/
  | clear (parts : List Part)
  /-- Writes the lines to a file in the text format. -/
  | writeText (name : Text)
  /-- Writes the lines to a file in the binary format. -/
  | writeBinary (name : Text)
deriving DecidableEq, Repr

/-- The session with one of its lists emptied. -/
def clearPart (s : Session) : Part → Session
  | .words => { s with words := [] }
  | .names => { s with names := [] }
  | .lines => { s with lines := [] }

/-- The session after its lines are written to a file. -/
def writeLines (s : Session) (name ext : Text) : Session × Option Failure :=
  let (files, failure?) := Command.writeModule s.files name ext (Text.ofLines s.lines)
  ({ s with files }, failure?)

/-- The session after one step, and the failure of the step if it has one. -/
def step (s : Session) : Step → Session × Option Failure
  | .read source => ({ s with words := s.words ++ Compiler.sourceWords source }, none)
  | .push ws => ({ s with words := s.words ++ ws }, none)
  | .strip => ({ s with words := Comment.strip s.words }, none)
  | .findVariables =>
      match Word.variablesIn s.vocabulary s.words with
      | .error e => (s, some (.word e))
      | .ok names => ({ s with names }, none)
  | .declare => ({ s with lines := s.lines ++ s.names.map Wat.declaration }, none)
  | .generate =>
      let code := Code.generate s.vocabulary s.words
      ({ s with lines := s.lines ++ code.lines }, code.error?.map .word)
  | .openModule => ({ s with lines := s.lines ++ [Wat.opening] }, none)
  | .closeModule => ({ s with lines := s.lines ++ [Wat.closing] }, none)
  | .define word code => ({ s with vocabulary := s.vocabulary.define word code }, none)
  | .forget word => ({ s with vocabulary := s.vocabulary.forget word }, none)
  | .clear parts => (parts.foldl clearPart s, none)
  | .writeText name => s.writeLines name Command.watExtension
  | .writeBinary name => s.writeLines name Command.wasmExtension

/-- The session after some steps, and after each step the session then and its failure. -/
def run (s : Session) : List Step → List (Session × Option Failure)
  | [] => []
  | st :: sts =>
      let after := s.step st
      after :: after.1.run sts

end Session

end TinyForth
