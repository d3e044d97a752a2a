import TinyForth.Text.Blank

/-!
# The bulletin

A demonstration page in three lines: the version of the interpreter it runs on, the date
and time, and a quotation picked at random.  The version, the clock and the pick are
given, so that the page is a function of them.
-/

namespace TinyForth.Bulletin

/-! ## The version -/

/-- The version line: the first word of the full version text.  A version text without a word
has none. -/
def versionLine? (version : Text) : Option Text :=
  version.words.head?.map ("Python ".toList ++ ·)

/-- The wording of the error about a version text without a word. -/
def noVersion : Text := "list index out of range".toList

/-! ## The date and time -/

/-- A date and a time of day. -/
structure DateTime where
  /-- The year, from 1 to 9999. -/
  year : Nat
  /-- The month, from 1. -/
  month : Nat
  /-- The day of the month, from 1. -/
  day : Nat
  /-- The hour of the day, below 24. -/
  hour : Nat := 0
  /-- The minute, below 60. -/
  minute : Nat := 0
  /-- The second, below 60. -/
  second : Nat := 0
  /-- The part of a second in millionths. -/
  microsecond : Nat := 0
deriving DecidableEq, Repr

/-- The date and time in digits of fixed width, year first.  The millionths are left out when
there are none. -/
def DateTime.render (t : DateTime) : Text :=
  Text.padded 10 4 t.year ++ ['-'] ++ Text.padded 10 2 t.month ++ ['-'] ++ Text.padded 10 2 t.day
    ++ ['T'] ++ Text.padded 10 2 t.hour ++ [':'] ++ Text.padded 10 2 t.minute
    ++ [':'] ++ Text.padded 10 2 t.second
    ++ if t.microsecond = 0 then [] else '.' :: Text.padded 10 6 t.microsecond

/-! ## The quotation -/

/-- The quotations. -/
def quotations : List Text := [
  ("A data scientist is a person who is better at statistics than any programmer and better at "
    ++ "programming than any statistician.").toList,
  "!false (It's funny because it's true.)".toList,
  "Why do programmers always mix up Christmas and Halloween? Because Dec 25 is Oct 31.".toList,
  "Have you tried turning it off and on again?".toList]

/-- The quotation of a pick, counted round and round the list in either direction. -/
def quotation (pick : Int) : Text :=
  quotations.getD (pick.emod quotations.length).toNat []

/-! ## The page -/

/-- The page, or `none` if the version text has no word. -/
def page? (version : Text) (now : DateTime) (pick : Int) : Option Text :=
  (versionLine? version).map fun line =>
    [line, now.render, quotation pick].flatMap (· ++ ['\n'])

example : (DateTime.mk 22 4 29 9 5 0 70).render = "0022-04-29T09:05:00.000070".toList := by decide

end TinyForth.Bulletin
