import Cascade.Text.Ranges

/-!
# Blank characters

A character is blank if it has the Unicode property `White_Space`.  The property has twenty-five
characters and has been stable for many versions of the standard.

## Main definitions

* `isBlank` : the property.
* `trim` : a text without the blank characters around it.
-/

namespace Cascade.Text

/-- The code points with the property `White_Space`. -/
def blankRanges : Ranges :=
  [(0x09, 0x0D), (0x20, 0x20), (0x85, 0x85), (0xA0, 0xA0), (0x1680, 0x1680), (0x2000, 0x200A),
   (0x2028, 0x2029), (0x202F, 0x202F), (0x205F, 0x205F), (0x3000, 0x3000)]

/-- Whether a character is white space. -/
def isBlank (c : Char) : Bool :=
  blankRanges.covers c

/-- The text without the blank characters at its start and at its end. -/
def trim (cs : List Char) : List Char :=
  ((cs.dropWhile isBlank).reverse.dropWhile isBlank).reverse

end Cascade.Text
