import Dotenv.Text

/-!
# White space

The characters with the Unicode property White_Space, and text without the
white space at its two ends.
-/

namespace Dotenv

namespace Text

/-- The characters with the Unicode property White_Space. -/
def isWhiteSpace (character : Char) : Bool :=
  let code := character.toNat
  (0x09 ≤ code && code ≤ 0x0D) || code == 0x20 || code == 0x85 || code == 0xA0 ||
    code == 0x1680 || (0x2000 ≤ code && code ≤ 0x200A) || code == 0x2028 ||
    code == 0x2029 || code == 0x202F || code == 0x205F || code == 0x3000

/-- Text without the white space that it starts or ends with. -/
def trimmed (text : Text) : Text :=
  ((text.dropWhile isWhiteSpace).reverse.dropWhile isWhiteSpace).reverse

end Text

end Dotenv
