import Dotenv.Json.Quoted

/-!
# JSON documents

A document is read into a value by the standard grammar: blanks between tokens,
no comma after a last item, no leading zeros, nothing after the value.
-/

namespace Dotenv

/-- A JSON value.  A string, or the key of a member, that is no text has no
content. -/
inductive Json where
  | null
  | boolean (value : Bool)
  | number (literal : Text)
  | string (content : Option Text)
  | array (items : List Json)
  | object (members : List (Option Text × Json))

namespace Json

/-- The blanks between tokens. -/
def isBlank (character : Char) : Bool :=
  character == ' ' || character == '\n' || character == '\t' || character == '\r'

def skipBlanks (text : Text) : Text := text.dropWhile isBlank

/-- The text after a given beginning. -/
def after? (beginning text : Text) : Option Text :=
  if beginning.isPrefixOf text then some (text.drop beginning.length) else none

/-- Read at least one digit. -/
def readDigits (text : Text) : Option (Text × Text) :=
  let digits := text.takeWhile Char.isDigit
  if digits.isEmpty then none else some (digits, text.dropWhile Char.isDigit)

/-- Read the digits before the point, which start with zero only as a single
digit. -/
def readWhole : Text → Option (Text × Text)
  | '0' :: next :: rest => if next.isDigit then none else some (['0'], next :: rest)
  | text => readDigits text

/-- Read the point and the digits after it, if there is a point. -/
def readFraction : Text → Option (Text × Text)
  | '.' :: rest => (readDigits rest).map fun read => ('.' :: read.1, read.2)
  | text => some ([], text)

/-- Read an exponent after its letter. -/
def readPower : Text → Option (Text × Text)
  | '+' :: rest => (readDigits rest).map fun read => ('+' :: read.1, read.2)
  | '-' :: rest => (readDigits rest).map fun read => ('-' :: read.1, read.2)
  | text => readDigits text

/-- Read an exponent, if there is one. -/
def readExponent : Text → Option (Text × Text)
  | 'e' :: rest => (readPower rest).map fun read => ('e' :: read.1, read.2)
  | 'E' :: rest => (readPower rest).map fun read => ('E' :: read.1, read.2)
  | text => some ([], text)

/-- Read a number without a sign. -/
def readUnsigned (text : Text) : Option (Text × Text) := do
  let (whole, afterWhole) ← readWhole text
  let (fraction, afterFraction) ← readFraction afterWhole
  let (exponent, rest) ← readExponent afterFraction
  return (whole ++ fraction ++ exponent, rest)

def readNumber : Text → Option (Text × Text)
  | '-' :: rest => (readUnsigned rest).map fun read => ('-' :: read.1, read.2)
  | text => readUnsigned text

/-- Read a key and the colon after it. -/
def readKey : Text → Option (Option Text × Text)
  | '"' :: rest =>
    (readString rest).bind fun key =>
      match skipBlanks key.rest with
      | ':' :: after => some (key.content, after)
      | _ => none
  | _ => none

/-- Read a value that is neither array nor object. -/
def readScalar (text : Text) : Option (Json × Text) :=
  match text with
  | '"' :: rest => (readString rest).map fun read => (.string read.content, read.rest)
  | _ =>
    match after? "null".toList text, after? "true".toList text,
      after? "false".toList text with
    | some rest, _, _ => some (.null, rest)
    | _, some rest, _ => some (.boolean true, rest)
    | _, _, some rest => some (.boolean false, rest)
    | none, none, none => (readNumber text).map fun read => (.number read.1, read.2)

mutual

/-- Read a value, by at most so many nested steps. -/
def readValue : Nat → Text → Option (Json × Text)
  | 0, _ => none
  | steps + 1, text =>
    match skipBlanks text with
    | '[' :: rest =>
      match skipBlanks rest with
      | ']' :: after => some (.array [], after)
      | _ => (readItems steps rest).map fun read => (.array read.1, read.2)
    | '{' :: rest =>
      match skipBlanks rest with
      | '}' :: after => some (.object [], after)
      | _ => (readMembers steps rest).map fun read => (.object read.1, read.2)
    | scalar => readScalar scalar

/-- Read at least one item and the end of the array. -/
def readItems : Nat → Text → Option (List Json × Text)
  | 0, _ => none
  | steps + 1, text =>
    (readValue steps text).bind fun item =>
      match skipBlanks item.2 with
      | ']' :: after => some ([item.1], after)
      | ',' :: after =>
        (readItems steps after).map fun later => (item.1 :: later.1, later.2)
      | _ => none

/-- Read at least one member and the end of the object. -/
def readMembers : Nat → Text → Option (List (Option Text × Json) × Text)
  | 0, _ => none
  | steps + 1, text =>
    (readKey (skipBlanks text)).bind fun key =>
      (readValue steps key.2).bind fun value =>
        match skipBlanks value.2 with
        | '}' :: after => some ([(key.1, value.1)], after)
        | ',' :: after =>
          (readMembers steps after).map fun later =>
            ((key.1, value.1) :: later.1, later.2)
        | _ => none

end

/-- Read a whole document.  Every second step at least takes a character, so
twice the length is enough of them. -/
def read? (document : Text) : Option Json :=
  (readValue (2 * document.length + 2) document).bind fun value =>
    if (skipBlanks value.2).isEmpty then some value.1 else none

/-- The content of a string that is text. -/
def text? : Json → Option Text
  | .string content => content
  | _ => none

end Json

end Dotenv
