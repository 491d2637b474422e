import Dotenv.Text.Display

/-!
# Strings in JSON

A JSON string stands between double quotes.  Writing escapes the double quote,
the backslash and the control characters below the space, and nothing else.
Reading takes every escape of the standard; a surrogate escape without its
partner is read too, but makes a string that is no text.
-/

namespace Dotenv

namespace Json

/-- A number of at most two hexadecimal digits as a four digit escape. -/
def controlEscape (code : Nat) : Text :=
  "\\u00".toList ++ [Nat.digitChar (code / 16), Nat.digitChar (code % 16)]

/-- A character as it is written inside a string. -/
def escaped (character : Char) : Text :=
  if character == '"' then ['\\', '"']
  else if character == '\\' then ['\\', '\\']
  else if character == '\x08' then ['\\', 'b']
  else if character == '\t' then ['\\', 't']
  else if character == '\n' then ['\\', 'n']
  else if character == '\x0c' then ['\\', 'f']
  else if character == '\r' then ['\\', 'r']
  else if character.toNat < 0x20 then controlEscape character.toNat
  else [character]

def quoted (text : Text) : Text := '"' :: text.flatMap escaped ++ ['"']

/-- The value of a hexadecimal digit in either case. -/
def hexDigit? (digit : Char) : Option Nat :=
  if digit.isDigit then
    some (digit.toNat - '0'.toNat)
  else if 'a' ≤ digit ∧ digit ≤ 'f' then
    some (digit.toNat - 'a'.toNat + 10)
  else if 'A' ≤ digit ∧ digit ≤ 'F' then
    some (digit.toNat - 'A'.toNat + 10)
  else
    none

/-- The number that four hexadecimal digits write. -/
def codeUnit? (first second third fourth : Char) : Option Nat := do
  let high ← hexDigit? first
  let upper ← hexDigit? second
  let lower ← hexDigit? third
  let low ← hexDigit? fourth
  return ((high * 16 + upper) * 16 + lower) * 16 + low

/-- Whether a code unit is the first half of a surrogate pair. -/
def isLeading (unit : Nat) : Bool := 0xD800 ≤ unit && unit ≤ 0xDBFF

/-- Whether a code unit is the second half of a surrogate pair. -/
def isTrailing (unit : Nat) : Bool := 0xDC00 ≤ unit && unit ≤ 0xDFFF

/-- The character of a surrogate pair. -/
def ofPair (leading trailing : Nat) : Char :=
  Char.ofNat (0x10000 + (leading - 0xD800) * 0x400 + (trailing - 0xDC00))

/-- The character that a letter stands for after a backslash. -/
def shortEscape? : Char → Option Char
  | '"' => some '"'
  | '\\' => some '\\'
  | '/' => some '/'
  | 'b' => some '\x08'
  | 'f' => some '\x0c'
  | 'n' => some '\n'
  | 'r' => some '\r'
  | 't' => some '\t'
  | _ => none

/-- A string read from text: its content, unless an unpaired surrogate makes it no
text, and what follows its closing quote. -/
structure StringRead where
  content : Option Text
  rest : Text
  deriving DecidableEq, Repr

namespace StringRead

/-- Put a character before the content. -/
def prepend (character : Char) (read : StringRead) : StringRead :=
  { read with content := read.content.map (character :: ·) }

/-- Note that the content follows the first half of a pair that stays alone, if it
follows one. -/
def settle (leading : Option Nat) (read : StringRead) : StringRead :=
  if leading.isSome then { read with content := none } else read

end StringRead

/-- Read a string on, after the first half of a surrogate pair or not. -/
def readStringAfter (leading : Option Nat) : Text → Option StringRead
  | [] => none
  | '"' :: rest => some (StringRead.settle leading ⟨some [], rest⟩)
  | '\\' :: 'u' :: first :: second :: third :: fourth :: rest =>
    match codeUnit? first second third fourth with
    | none => none
    | some unit =>
      if isTrailing unit then
        match leading with
        | some half => (readStringAfter none rest).map (.prepend (ofPair half unit))
        | none => (readStringAfter none rest).map (.settle (some unit))
      else if isLeading unit then
        (readStringAfter (some unit) rest).map (.settle leading)
      else
        (readStringAfter none rest).map (.settle leading ∘ .prepend (Char.ofNat unit))
  | '\\' :: letter :: rest =>
    match shortEscape? letter with
    | none => none
    | some character =>
      (readStringAfter none rest).map (.settle leading ∘ .prepend character)
  | character :: rest =>
    if character.toNat < 0x20 ∨ character = '\\' then
      none
    else
      (readStringAfter none rest).map (.settle leading ∘ .prepend character)

/-- Read a string after its opening quote. -/
def readString (text : Text) : Option StringRead := readStringAfter none text

end Json

end Dotenv
