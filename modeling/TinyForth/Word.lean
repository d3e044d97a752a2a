import Std.Data.ExtTreeSet
import TinyForth.Numeral
import TinyForth.Text.Letter
import TinyForth.Vocabulary

/-!
# Words and what they mean

A program is a list of words.  A word is a numeral, an operation of the vocabulary, a
variable, or a variable with an exclamation mark behind it.  The four are tried in this
order.  A numeral pushes its value, an operation runs its code, a variable is fetched,
and a variable with a mark is stored into.

A word without a character in front of the mark is about no name at all.  Asking whether
the empty name is a variable is an error of its own, `Error.empty`, and comes before the
verdict that a word is unknown.  Words read from a text are never empty, so of them only
the mark alone has this error.

The variables of a program are a set, and the language does not say in which order they are
listed.  So the order is a parameter, a `Listing`.  Where none is given, it is the ascending
one.
-/

namespace TinyForth

/-- A word of a program. -/
abbrev Word := Text

namespace Word

/-! ## Errors -/

/-- What can be wrong with a word. -/
inductive Error where
  /-- The word is about the empty name. -/
  | empty
  /-- The word has none of the four meanings. -/
  | unknown (word : Text)
deriving DecidableEq, Repr

/-- The wording of an error. -/
def Error.message : Error → Text
  | .empty => "string index out of range".toList
  | .unknown w => ['\''] ++ w ++ "' is not a valid word".toList

/-! ## Names -/

/-- The name before a final exclamation mark. -/
def target? (w : Word) : Option Word := if w.getLast? = some '!' then some w.dropLast else none

/-- The name a word is about: the word itself, or what stands before its final mark. -/
def name (w : Word) : Word := w.target?.getD w

/-- A letter, and after it letters and other alphanumeric characters. -/
def hasNameShape : Word → Bool
  | [] => false
  | c :: cs => Text.isLetter c && cs.all Text.isAlphanumeric

/-- The word is a variable: it is shaped like a name and is no operation. -/
def isVariable (v : Vocabulary) (w : Word) : Bool := hasNameShape w && !v.contains w

/-- Whether a name is a variable, which cannot be asked of the empty name. -/
def checkVariable (v : Vocabulary) (w : Word) : Except Error Bool :=
  if w.isEmpty then .error .empty else .ok (isVariable v w)

/-! ## Meanings -/

/-- What a word does. -/
inductive Meaning where
  /-- Pushes the value of a numeral. -/
  | push (numeral : Text)
  /-- Runs the code of an operation. -/
  | operation (code : List Text)
  /-- Pushes the value of a variable. -/
  | fetch (x : Text)
  /-- Pops a value into a variable. -/
  | store (x : Text)
deriving DecidableEq, Repr

/-- The meaning of a word, or why it has none. -/
def meaning (v : Vocabulary) (w : Word) : Except Error Meaning :=
  if Numeral.isNumeral w then .ok (.push w)
  else match v[w]? with
    | some code => .ok (.operation code)
    | none => do
      if ← checkVariable v w then return .fetch w
      match w.target? with
      | some x => if ← checkVariable v x then return .store x else throw (.unknown w)
      | none => throw (.unknown w)

/-! ## The variables of a program -/

/-- A way of listing the distinct texts among some texts, in an order of its own. -/
structure Listing where
  /-- The list. -/
  list : List Text → List Text
  /-- No text is listed twice. -/
  nodup_list (ts : List Text) : (list ts).Nodup
  /-- The texts that are listed are the given ones. -/
  mem_list {ts : List Text} {t : Text} : t ∈ list ts ↔ t ∈ ts

/-- The listing in ascending order. -/
def Listing.ascending : Listing where
  list ts := (Std.ExtTreeSet.ofList ts).toList
  nodup_list ts := by
    refine (Std.ExtTreeSet.distinct_toList (t := Std.ExtTreeSet.ofList ts)).imp ?_
    intro a b apart same
    exact apart (Std.LawfulEqCmp.compare_eq_iff_eq.mpr same)
  mem_list := by
    intro ts t
    rw [Std.ExtTreeSet.mem_toList, Std.ExtTreeSet.mem_ofList, List.contains_iff_mem]

/-- The variables among some names, where each name is checked in its turn. -/
def variablesAmong (v : Vocabulary) : List Word → Except Error (List Word)
  | [] => .ok []
  | x :: xs => do
      let isVar ← checkVariable v x
      let later ← variablesAmong v xs
      return if isVar then x :: later else later

/-- The variables that words are about, each once. -/
def variablesIn (v : Vocabulary) (ws : List Word) (listing : Listing := .ascending) :
    Except Error (List Word) :=
  (variablesAmong v (ws.map name)).map listing.list

end Word

end TinyForth
