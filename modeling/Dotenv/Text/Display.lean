import Dotenv.Text.Unprintable

/-!
# Displayed text

Text is displayed between double quotes, with an escape for each character that
would not show as itself.
-/

namespace Dotenv

namespace Text

/-- The hexadecimal digits of a number, in lower case. -/
def hexadecimal (number : Nat) : Text := Nat.toDigits 16 number

def displayedCharacter (character : Char) : Text :=
  if character == '\x00' then "\\0".toList
  else if character == '\t' then "\\t".toList
  else if character == '\n' then "\\n".toList
  else if character == '\r' then "\\r".toList
  else if character == '"' then "\\\"".toList
  else if character == '\\' then "\\\\".toList
  else if isUnprintable character then
    "\\u\x7b".toList ++ hexadecimal character.toNat ++ "\x7d".toList
  else [character]

def displayed (text : Text) : Text := '"' :: text.flatMap displayedCharacter ++ ['"']

end Text

end Dotenv
