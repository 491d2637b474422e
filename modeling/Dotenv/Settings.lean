import Dotenv.Fault
import Dotenv.Text.Utf8
import Dotenv.Text.WhiteSpace

/-!
# Settings

The settings decide how definitions are read and expanded.  They can be taken
from two variables of the process environment; a variable that is unset, blank
or no UTF-8 changes nothing.
-/

namespace Dotenv

/-- What changes how definitions are read and expanded. -/
structure Settings where
  allowBlankLines : Bool := false
  strictReferences : Bool := false
  deriving DecidableEq, Repr

/-- The byte values of environment variables by their names. -/
abbrev Environment := List (Text × List UInt8)

namespace Environment

/-- The text of a variable without the white space around it, if there is any
text. -/
def text? (environment : Environment) (name : Text) : Option Text :=
  (environment.lookup name).bind fun bytes =>
    match Utf8.decode bytes with
    | .error _ => none
    | .ok text => if text.trimmed.isEmpty then none else some text.trimmed

end Environment

namespace Settings

/-- The variable that allows blank lines. -/
def allowBlankLinesName : Text := "ENVCHAIN_ALLOW_BLANK_LINES".toList

/-- The variable that makes references strict. -/
def strictReferencesName : Text := "ENVCHAIN_STRICT_REFERENCES".toList

/-- The truth value that a text spells, in letters of either case. -/
def truth? (text : Text) : Option Bool :=
  let lower := text.map Char.toLower
  if lower = "true".toList ∨ lower = "1".toList then
    some true
  else if lower = "false".toList ∨ lower = "0".toList then
    some false
  else
    none

/-- The truth value that a variable spells, or the present one where the variable
says nothing. -/
def readTruth (environment : Environment) (name : Text) (present : Bool) :
    Except Fault Bool :=
  match environment.text? name with
  | none => .ok present
  | some text =>
    match truth? text with
    | some value => .ok value
    | none => .error (.invalidSetting name "must be true, false, 1 or 0".toList)

/-- Settings after an attempt to change them, with the fault that ended the
attempt. -/
structure Change where
  settings : Settings
  fault : Option Fault
  deriving DecidableEq, Repr

/-- Take over what the environment says.  The first variable is taken over before
the second is looked at. -/
def takeOver (environment : Environment) (settings : Settings) : Change :=
  match readTruth environment allowBlankLinesName settings.allowBlankLines with
  | .error fault => ⟨settings, some fault⟩
  | .ok allowBlankLines =>
    let changed := { settings with allowBlankLines := allowBlankLines }
    match readTruth environment strictReferencesName settings.strictReferences with
    | .error fault => ⟨changed, some fault⟩
    | .ok strictReferences => ⟨{ changed with strictReferences := strictReferences }, none⟩

/-- The settings that the environment gives to a fresh run. -/
def ofEnvironment (environment : Environment) : Except Fault Settings :=
  let change := takeOver environment {}
  match change.fault with
  | none => .ok change.settings
  | some fault => .error fault

end Settings

end Dotenv
