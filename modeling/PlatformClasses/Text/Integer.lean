import PlatformClasses.Text.Blank
import PlatformClasses.Text.Letter

/-!
# Integer literals

An integer is written with an optional sign, decimal digits of any script, and single underscores
between digits; white space around it does not count.
-/

namespace PlatformClasses.Text

/-- The number of digits a literal may have. -/
def maxDigits : Nat := 4300

/-- White space that may surround an integer: all but the information separators. -/
def isBlankAroundInteger (c : Char) : Bool :=
  isBlank c && !(0x1c ≤ c.toNat && c.toNat ≤ 0x1f)

/-- Reads digits with single underscores between them, the value and the number of the digits before
being given.  `afterDigit` tells whether the last character was a digit: an underscore, and the end,
must follow one. -/
def readDigits? (value count : Nat) (afterDigit : Bool) : List Char → Option Nat
  | [] => if afterDigit && count ≤ maxDigits then some value else none
  | c :: rest =>
    if c == '_' then
      if afterDigit then readDigits? value count false rest else none
    else
      match digitValue? c with
      | some d => readDigits? (10 * value + d) (count + 1) true rest
      | none => none

/-- A text without the white space around an integer. -/
def bareInteger (cs : List Char) : List Char :=
  ((cs.dropWhile isBlankAroundInteger).reverse.dropWhile isBlankAroundInteger).reverse

/-- The integer that digits denote, perhaps with a sign before them. -/
def readSigned? : List Char → Option Int
  | '-' :: digits => (readDigits? 0 0 false digits).map fun n : Nat => -(n : Int)
  | '+' :: digits => (readDigits? 0 0 false digits).map fun n : Nat => (n : Int)
  | digits => (readDigits? 0 0 false digits).map fun n : Nat => (n : Int)

/-- The integer a text denotes. -/
def toInt? (s : String) : Option Int := readSigned? (bareInteger s.toList)

end PlatformClasses.Text
