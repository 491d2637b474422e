import Dotenv.Json
import Dotenv.Variable

/-!
# Variables in JSON

A map of variables is written as an object of strings, in name order.  A list of
variables is written as an array of objects with the fields `name` and `value`.
Both can be read back.
-/

namespace Dotenv

namespace Json

/-- The blanks in an object: before each member, behind each colon, and behind the last
member. -/
structure Spacing where
  lead : Text
  gap : Text
  tail : Text

def Spacing.compact : Spacing := ⟨[], [], []⟩

/-- One member a line. -/
def Spacing.lines : Spacing := ⟨['\n', ' ', ' '], [' '], ['\n']⟩

/-- A member whose key and value are written as strings, with a gap behind its colon. -/
def member (quote : Text → Text) (gap : Text) (entry : Text × Text) : Text :=
  quote entry.1 ++ ':' :: (gap ++ quote entry.2)

/-- An object of strings.  There are no blanks in it where it has no members. -/
def writeObject (quote : Text → Text) (spacing : Spacing) (entries : List (Text × Text)) : Text :=
  if entries.isEmpty then
    ['{', '}']
  else
    '{' :: (spacing.lead ++
      ((',' :: spacing.lead).intercalate (entries.map (member quote spacing.gap)) ++
        spacing.tail)) ++ ['}']

/-- An array of what is written already. -/
def writeArray (items : List Text) : Text := '[' :: [','].intercalate items ++ [']']

end Json

namespace Variable

def nameField : Text := "name".toList

def valueField : Text := "value".toList

/-- The members that a variable is written with. -/
def fields (entry : Variable) : List (Text × Text) :=
  [(nameField, entry.name), (valueField, entry.value)]

/-- Variables as an array of objects. -/
def listToJson (listed : List Variable) : Text :=
  Json.writeArray (listed.map fun entry => Json.writeObject Json.quoted .compact entry.fields)

end Variable

namespace VariableMap

/-- A map as an object without blanks. -/
def toJson (map : VariableMap) : Text := Json.writeObject Json.quoted .compact map.entries

/-- A map as an object with one member a line. -/
def toIndentedJson (map : VariableMap) : Text := Json.writeObject Json.quoted .lines map.entries

/-- A member whose key and value are texts. -/
def textMember? (member : Option Text × Json) : Option (Text × Text) := do
  let key ← member.1
  let value ← member.2.text?
  return (key, value)

/-- The map of an object of strings.  The last of equal keys wins. -/
def ofJson? : Json → Option VariableMap
  | .object members => (members.mapM textMember?).map .ofList
  | _ => none

/-- The map that a document holds. -/
def readJson? (document : Text) : Option VariableMap :=
  (Json.read? document).bind ofJson?

end VariableMap

namespace Variable

/-- The values of the members with a given key. -/
def fieldValues (name : Text) (members : List (Option Text × Json)) : List Json :=
  members.filterMap fun member => if member.1 = some name then some member.2 else none

/-- The text of a field that an object has exactly once. -/
def field? (name : Text) (members : List (Option Text × Json)) : Option Text :=
  match fieldValues name members with
  | [value] => value.text?
  | _ => none

/-- The variable of an object with the two fields, or of an array of two strings.
Other fields do not matter, as long as their keys are texts. -/
def ofJson? : Json → Option Variable
  | .object members =>
    if members.all (·.1.isSome) then do
      let name ← field? nameField members
      let value ← field? valueField members
      return ⟨name, value⟩
    else
      none
  | .array [name, value] => do
    let name ← name.text?
    let value ← value.text?
    return ⟨name, value⟩
  | _ => none

/-- The variables of an array of variables. -/
def listOfJson? : Json → Option (List Variable)
  | .array items => items.mapM ofJson?
  | _ => none

/-- The variable that a document holds. -/
def readJson? (document : Text) : Option Variable :=
  (Json.read? document).bind ofJson?

/-- The variables that a document holds. -/
def readListJson? (document : Text) : Option (List Variable) :=
  (Json.read? document).bind listOfJson?

end Variable

end Dotenv
