import Dotenv.Reference
import Dotenv.Variable

/-!
# Definition lines

A line of a definition file is a definition, a comment, a blank or malformed.
A definition is a name, an equals sign and a value, with blanks around each and
possibly the word `export` before the name.  A value is made of escapes,
references and plain characters, possibly between double quotes.
-/

namespace Dotenv

/-- Whether a text is made of escapes, references and plain characters.  A
backslash with nothing after it counts as an escape only where that is asked
for. -/
def Value.isInner (loneBackslash : Bool) : Text → Bool
  | [] => true
  | '\\' :: [] => loneBackslash
  | '\\' :: escaped :: rest => escaped != '\n' && isInner loneBackslash rest
  | '$' :: rest => Reference.begins ('$' :: rest) && isInner loneBackslash rest
  | first :: rest =>
    first != '"' && first != '\r' && first != '\n' && isInner loneBackslash rest

/-- Whether a text is a value between double quotes. -/
def Value.isQuoted : Text → Bool
  | '"' :: rest => rest.getLast? == some '"' && isInner false rest.dropLast
  | _ => false

/-- Whether a text is a value.  Only a value without quotes may end in one
backslash that escapes nothing. -/
def Value.isValid (text : Text) : Bool := isInner true text || isQuoted text

/-- What a line is. -/
inductive Line where
  | definition (entry : Variable)
  | comment
  | blank
  | malformed
  deriving DecidableEq, Repr

namespace Line

def exportWord : Text := "export".toList

/-- The text after the word `export` and at least one blank. -/
def afterExport? (text : Text) : Option Text :=
  if exportWord.isPrefixOf text then
    match text.drop exportWord.length with
    | first :: rest => if Text.isBlank first then some (Text.trimBlanks rest) else none
    | [] => none
  else
    none

/-- The name and the raw value of a text that starts with a name. -/
def assignment? (text : Text) : Option Variable :=
  (Name.leading? text).bind fun found =>
    match Text.trimBlanks found.2 with
    | '=' :: rest =>
      let value := Text.trimBlanks rest
      if Text.hasLineFeed value then none else some ⟨found.1, value⟩
    | _ => none

/-- The name and the raw value of a definition, whatever the value is made of.
The word `export` can itself be the name that is defined. -/
def definition? (line : Text) : Option Variable :=
  let start := Text.trimBlanks line
  ((afterExport? start).bind assignment?).or (assignment? start)

/-- Whether a line has nothing but blanks. -/
def isBlank (line : Text) : Bool := line.all Text.isBlank

/-- Whether the first character of a line that is no blank is a number sign. -/
def isComment (line : Text) : Bool := (Text.trimBlanks line).head? == some '#'

/-- What a line is, where blank lines are allowed or not. -/
def classify (allowBlank : Bool) (line : Text) : Line :=
  if isBlank line then
    if allowBlank then .blank else .malformed
  else if isComment line then
    .comment
  else
    match definition? line with
    | some entry => if Value.isValid entry.value then .definition entry else .malformed
    | none => .malformed

end Line

end Dotenv
