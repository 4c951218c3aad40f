import PlatformClasses.Text.LetterTable
import PlatformClasses.Text.Ranges

/-!
# Letters, digits and the characters of names

Two notions of a name's characters are needed.  A *word* character is a letter, a number of any kind or
an underscore: type references are made of them.  An *identifier* of the declaration language starts
with a letter and goes on with letters, marks, digits and connectors.  ASCII is decided without a
table.
-/

namespace PlatformClasses.Text

/-- An ASCII letter. -/
def isAsciiLetter (c : Char) : Bool :=
  let n := c.toNat
  (0x41 ≤ n && n ≤ 0x5a) || (0x61 ≤ n && n ≤ 0x7a)

/-- An ASCII digit. -/
def isAsciiDigit (c : Char) : Bool :=
  let n := c.toNat
  0x30 ≤ n && n ≤ 0x39

/-- A letter of any script. -/
def isLetter (c : Char) : Bool :=
  if c.toNat < 128 then isAsciiLetter c else inRanges c.toNat letterRanges

/-- The value of a decimal digit of any script. -/
def digitValue? (c : Char) : Option Nat :=
  if c.toNat < 128 then
    if isAsciiDigit c then some (c.toNat - 0x30) else none
  else
    (decimalZeros.find? fun first => first ≤ c.toNat && c.toNat ≤ first + 9).map (c.toNat - ·)

/-- A decimal digit of any script. -/
def isDecimalDigit (c : Char) : Bool :=
  (digitValue? c).isSome

/-- A letter, a number of any kind (digits, superscripts, fractions, numerals) or an underscore. -/
def isWordChar (c : Char) : Bool :=
  if c.toNat < 128 then isAsciiLetter c || isAsciiDigit c || c == '_'
  else isLetter c || isDecimalDigit c || inRanges c.toNat letterNumberRanges ||
    inRanges c.toNat otherNumberRanges

/-- A letter or underscore of ASCII, the first character of a name in a type reference. -/
def isNameStart (c : Char) : Bool :=
  isAsciiLetter c || c == '_'

/-- Letters that normalisation keeps from starting an identifier. -/
def notIdentifierStart : List Nat :=
  [0x037a, 0x0e33, 0x0eb3, 0x2e2f, 0xfc5e, 0xfc5f, 0xfc60, 0xfc61, 0xfc62, 0xfc63, 0xfdfa, 0xfdfb,
   0xfe70, 0xfe72, 0xfe74, 0xfe76, 0xfe78, 0xfe7a, 0xfe7c, 0xfe7e, 0xff9e, 0xff9f]

/-- Letters that normalisation keeps out of identifiers altogether. -/
def notIdentifierPart : List Nat :=
  [0x037a, 0x2e2f, 0xfc5e, 0xfc5f, 0xfc60, 0xfc61, 0xfc62, 0xfc63, 0xfdfa, 0xfdfb,
   0xfe70, 0xfe72, 0xfe74, 0xfe76, 0xfe78, 0xfe7a, 0xfe7c, 0xfe7e]

/-- Characters that start identifiers for historical reasons, though they are not letters. -/
def otherIdentifierStart : List Nat := [0x1885, 0x1886, 0x2118, 0x212e]

/-- Characters that continue identifiers for historical reasons. -/
def otherIdentifierPart : List Nat :=
  [0x00b7, 0x0387, 0x1369, 0x136a, 0x136b, 0x136c, 0x136d, 0x136e, 0x136f, 0x1370, 0x1371, 0x19da,
   0x2118, 0x212e]

/-- A character an identifier can start with. -/
def isIdentifierStart (c : Char) : Bool :=
  if c.toNat < 128 then isAsciiLetter c || c == '_'
  else
    ((isLetter c || inRanges c.toNat letterNumberRanges) && !notIdentifierStart.contains c.toNat) ||
      otherIdentifierStart.contains c.toNat

/-- A character an identifier can go on with. -/
def isIdentifierPart (c : Char) : Bool :=
  if c.toNat < 128 then isAsciiLetter c || isAsciiDigit c || c == '_'
  else
    ((isLetter c || isDecimalDigit c || inRanges c.toNat letterNumberRanges ||
        inRanges c.toNat markRanges || inRanges c.toNat connectorRanges) &&
      !notIdentifierPart.contains c.toNat) ||
      otherIdentifierPart.contains c.toNat

theorem isWordChar_of_isAsciiLetter {c : Char} (h : isAsciiLetter c = true) :
    isWordChar c = true := by
  have hn : c.toNat < 128 := by
    simp [isAsciiLetter] at h; omega
  simp [isWordChar, hn, h]

theorem isWordChar_of_isNameStart {c : Char} (h : isNameStart c = true) : isWordChar c = true := by
  simp only [isNameStart, Bool.or_eq_true, beq_iff_eq] at h
  rcases h with h | rfl
  · exact isWordChar_of_isAsciiLetter h
  · decide

end PlatformClasses.Text
