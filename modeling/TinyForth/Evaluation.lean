import TinyForth.Cell
import TinyForth.Word

/-!
# Evaluating words

What a program does, word by word, with no code in between.  The state is a stack of
cells, the variables, and a console.  A variable that was never stored into is zero.  At a
trap the state stays as it was before the word.  A word that is no numeral, no operation of
the language and about no variable is stuck.
-/

namespace TinyForth

/-- The state of a program. -/
structure Evaluation where
  /-- The operands, top first. -/
  stack : List Cell := []
  /-- The variables stored into. -/
  store : Std.ExtTreeMap Word Cell := ∅
  /-- The console. -/
  console : Console

namespace Evaluation

/-- The value of a variable. -/
def value (s : Evaluation) (x : Word) : Cell := s.store.getD x 0

/-- The state after a console call on the rest of its stack. -/
def callConsole (s : Evaluation) (c : Call) (rest : List Cell) : Except Trap Evaluation :=
  (s.console.callOn c rest).map fun (console, stack) => { s with console, stack }

/-- The state after an operation of the language, or `none` if the word is not one. -/
def operation? (s : Evaluation) (w : Word) : Option (Except Trap Evaluation) :=
  if w = "+".toList then some <|
    match s.stack with
    | y :: x :: rest => .ok { s with stack := (x + y) :: rest }
    | _ => .error .stuck
  else if w = "*".toList then some <|
    match s.stack with
    | y :: x :: rest => .ok { s with stack := (x * y) :: rest }
    | _ => .error .stuck
  else if w = ".".toList then some <|
    match s.stack with
    | x :: rest => s.callConsole (.print x.toInt) rest
    | [] => .error .stuck
  else if w = "emit".toList then some <|
    match s.stack with
    | x :: rest => s.callConsole (.emit x.toInt) rest
    | [] => .error .stuck
  else if w = "input".toList then some (s.callConsole .input s.stack)
  else if w = "nl".toList then some (s.callConsole (.emit 10) s.stack)
  else none

/-- The state after one word. -/
def step (s : Evaluation) (w : Word) : Except Trap Evaluation :=
  match Numeral.value? w, s.operation? w with
  | some n, _ => .ok { s with stack := BitVec.ofInt 32 n :: s.stack }
  | none, some result => result
  | none, none =>
      if w.hasNameShape then .ok { s with stack := s.value w :: s.stack }
      else match w.target?, s.stack with
        | some x, n :: rest =>
            if x.hasNameShape then .ok { s with stack := rest, store := s.store.insert x n }
            else .error .stuck
        | _, _ => .error .stuck

/-- The state after some words, and the trap it stopped at, if it did. -/
def run (s : Evaluation) : List Word → Evaluation × Option Trap
  | [] => (s, none)
  | w :: ws =>
      match s.step w with
      | .error trap => (s, some trap)
      | .ok after => after.run ws

end Evaluation

end TinyForth
