/-!
# Blank characters

The characters with the Unicode property `White_Space`, and the removal of blanks from
both ends of a text.
-/

namespace IslandPlots.Text

/-- The 25 characters with the Unicode property `White_Space`. -/
def isBlank (c : Char) : Bool :=
  let n := c.toNat
  (0x09 ≤ n && n ≤ 0x0D) || n == 0x20 || n == 0x85 || n == 0xA0 || n == 0x1680
    || (0x2000 ≤ n && n ≤ 0x200A) || n == 0x2028 || n == 0x2029 || n == 0x202F
    || n == 0x205F || n == 0x3000

/-- The text without the blanks at its beginning and its end. -/
def trim (text : List Char) : List Char :=
  ((text.dropWhile isBlank).reverse.dropWhile isBlank).reverse

/-- A string without the blanks at its beginning and its end. -/
def trimString (text : String) : String :=
  String.ofList (trim text.toList)

end IslandPlots.Text
