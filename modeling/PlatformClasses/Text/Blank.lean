/-!
# White space

The white space that may surround a type reference, a list entry or a value, and the trimming of a
text on either side.
-/

namespace PlatformClasses.Text

/-- White space: the separators of every script, the line and paragraph breaks, and the four
information separators U+001C to U+001F.  Zero-width characters do not count. -/
def isBlank (c : Char) : Bool :=
  let n := c.toNat
  (0x09 ≤ n && n ≤ 0x0d) || (0x1c ≤ n && n ≤ 0x20) || n == 0x85 || n == 0xa0 || n == 0x1680 ||
    (0x2000 ≤ n && n ≤ 0x200a) || n == 0x2028 || n == 0x2029 || n == 0x202f || n == 0x205f ||
    n == 0x3000

/-- Drops the white space at the end. -/
def trimRightChars (cs : List Char) : List Char :=
  (cs.reverse.dropWhile isBlank).reverse

/-- Drops the white space at both ends. -/
def trimChars (cs : List Char) : List Char :=
  trimRightChars (cs.dropWhile isBlank)

/-- Whether a text holds nothing but white space. -/
def isAllBlank (s : String) : Bool :=
  s.toList.all isBlank

/-- Drops every white space character of a text. -/
def withoutBlanks (s : String) : String :=
  String.ofList (s.toList.filter fun c => !isBlank c)

end PlatformClasses.Text
