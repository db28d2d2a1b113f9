import Reckoner.Text.Ranges

/-!
White space: the twenty-five characters with the Unicode property White_Space, and texts without
the white space around them.
-/

namespace Reckoner.Text

def whiteSpaceRanges : Ranges :=
  [(0x9, 0xD), (0x20, 0x20), (0x85, 0x85), (0xA0, 0xA0), (0x1680, 0x1680), (0x2000, 0x200A),
   (0x2028, 0x2029), (0x202F, 0x202F), (0x205F, 0x205F), (0x3000, 0x3000)]

-- White space stands between tokens and around what a user types.
def isWhiteSpace (c : Char) : Bool :=
  whiteSpaceRanges.has c.toNat

-- The text without the white space at its two ends.
def trim (text : List Char) : List Char :=
  (text.dropWhile isWhiteSpace).reverse.dropWhile isWhiteSpace |>.reverse

end Reckoner.Text
