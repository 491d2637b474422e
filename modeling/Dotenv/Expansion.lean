import Dotenv.Escape
import Dotenv.Fault
import Dotenv.Variable

/-!
# Expansion

Expanding a text puts values in place of its references.  A value goes in
without the quotes around it and is not looked through again; a reference to an
absent name stays as it is written and its name is noted.
-/

namespace Dotenv

/-- An expanded text with the names that it refers to and that are absent, one
for each reference, in order. -/
structure Expansion where
  text : Text
  missing : List Text
  deriving DecidableEq, Repr

def Expansion.isResolved (expansion : Expansion) : Bool := expansion.missing.isEmpty

namespace Piece

/-- What stands in place of a piece after expansion. -/
def expanded (map : VariableMap) : Piece → Text
  | .literal character => [character]
  | .token reference =>
    match map.get? reference.name with
    | some value => value.unquoted
    | none => reference.text

/-- The absent name that a piece refers to. -/
def missing? (map : VariableMap) : Piece → Option Text
  | .literal _ => none
  | .token reference =>
    if map.contains reference.name then none else some reference.name

end Piece

namespace Text

/-- Put the values of a map in place of the references of a text. -/
def expand (map : VariableMap) (text : Text) : Expansion where
  text := text.pieces.flatMap (Piece.expanded map)
  missing := text.pieces.filterMap (Piece.missing? map)

/-- Refuse a text with a stray dollar sign. -/
def checkReferences (text : Text) : Except Fault Unit :=
  match Escape.stray? text with
  | none => .ok ()
  | some before => .error (.invalidReference none (before + 1))

/-- Expand a text, after refusing stray dollar signs if the references have to
be strict. -/
def expandWith (strict : Bool) (map : VariableMap) (text : Text) :
    Except Fault Expansion :=
  if strict then
    text.checkReferences.map fun _ => text.expand map
  else
    .ok (text.expand map)

/-- Expand a text in which nothing may be missing. -/
def resolve (text : Text) (strict : Bool) (map : VariableMap)
    (definition : Option Text) (origin : Text) : Except Fault Text :=
  (text.expandWith strict map).bind fun expansion =>
    if expansion.isResolved then
      .ok expansion.text
    else
      .error (.undefinedReference definition origin expansion.missing)

end Text

end Dotenv
