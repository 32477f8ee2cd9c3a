import KingCheck.Text.Ranges

/-!
# Blank characters

The Unicode property White_Space, which decides what a blank line is and what is cut
from both ends of a setting's value.
-/
namespace KingCheck.Text

/-- The characters with the property White_Space. -/
def whiteSpace : Ranges :=
  [(0x0009, 0x000d), (0x0020, 0x0020), (0x0085, 0x0085), (0x00a0, 0x00a0), (0x1680, 0x1680),
    (0x2000, 0x200a), (0x2028, 0x2029), (0x202f, 0x202f), (0x205f, 0x205f), (0x3000, 0x3000)]

/-- The character is white space. -/
def isBlank (c : Char) : Bool := whiteSpace.contains c

/-- The text without the white space at its ends. -/
def trim (s : List Char) : List Char :=
  ((s.dropWhile isBlank).reverse.dropWhile isBlank).reverse

end KingCheck.Text
