/-!
# Blanks and plain lower case

Settings are compared after the blanks around them are taken off. Blank is every character with
the property `White_Space`; the lower case taken here touches the letters `A` to `Z` alone.
-/

namespace BridgeNames.Text

/-- The characters with the property `White_Space`. -/
def isBlank (c : Char) : Bool :=
  let n := c.toNat
  (0x09 ≤ n && n ≤ 0x0d) || n == 0x20 || n == 0x85 || n == 0xa0 || n == 0x1680 ||
    (0x2000 ≤ n && n ≤ 0x200a) || n == 0x2028 || n == 0x2029 || n == 0x202f || n == 0x205f ||
    n == 0x3000

/-- Takes the blanks off both ends. -/
def trimBlanks (text : List Char) : List Char :=
  ((text.dropWhile isBlank).reverse.dropWhile isBlank).reverse

/-- Trimming of strings. -/
def trimmed (s : String) : String := String.ofList (trimBlanks s.toList)

/-- The string with `A` to `Z` in lower case and all else unchanged. -/
def plainLower (s : String) : String := String.ofList (s.toList.map Char.toLower)

end BridgeNames.Text
