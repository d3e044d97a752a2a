import TinyForth.Text.Blank
import TinyForth.Text.Digit

/-!
# Numerals

How an integer is written.  A numeral is one optional sign and then decimal digits,
with single underscores allowed between two digits and padding allowed around the
whole.  The digits may be of any script.  The compiler reads the words of a program
by this rule and the console reads the lines of its input by it, so the two agree on
which texts are integers.

More than `maxDigits` digits are no numeral.  Leading zeros count, the underscores
and the sign do not.  Writing gives the shortest numeral in the digits `0` to `9`.
-/

namespace TinyForth.Numeral

/-- The most digits a numeral may have. -/
def maxDigits : Nat := 4300

/-- The digits after a first digit, each of them alone or after one underscore. -/
def moreDigits? : Text → Option (List Nat)
  | [] => some []
  | '_' :: c :: rest => (Text.digit? c).bind fun d => (moreDigits? rest).map (d :: ·)
  | c :: rest => (Text.digit? c).bind fun d => (moreDigits? rest).map (d :: ·)

/-- The digits of a text that is digits and single underscores between them. -/
def digits? : Text → Option (List Nat)
  | [] => none
  | c :: rest => (Text.digit? c).bind fun d => (moreDigits? rest).map (d :: ·)

/-- The number that digits in base ten denote, most significant first. -/
def ofDigits (ds : List Nat) : Nat := ds.foldl (fun n d => 10 * n + d) 0

/-- The value of an unsigned numeral without padding. -/
def magnitude? (t : Text) : Option Nat :=
  (digits? t).bind fun ds => if ds.length ≤ maxDigits then some (ofDigits ds) else none

/-- The value of a numeral without padding. -/
def signed? : Text → Option Int
  | '+' :: t => (magnitude? t).map fun n : Nat => (n : Int)
  | '-' :: t => (magnitude? t).map fun n : Nat => -(n : Int)
  | t => (magnitude? t).map fun n : Nat => (n : Int)

/-- The value of a numeral, or `none` if the text is not one. -/
def value? (t : Text) : Option Int := signed? (t.trim Text.isPadding)

/-- The text is a numeral. -/
def isNumeral (t : Text) : Bool := (value? t).isSome

/-- The shortest numeral of a value. -/
def render : Int → Text
  | .ofNat n => Nat.toDigits 10 n
  | .negSucc n => '-' :: Nat.toDigits 10 (n + 1)

example : value? " -1_0 ".toList = some (-10) ∧ value? "1__0".toList = none := by decide

example : value? "+٣7".toList = some 37 ∧ value? "--1".toList = none := by decide

end TinyForth.Numeral
