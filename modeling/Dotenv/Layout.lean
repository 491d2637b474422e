import Dotenv.Text.Quoted
import Dotenv.Variable

/-!
# Layouts

A layout says how variables are written as definition lines: what stands before
a name, what stands between a name and its value, and how each of the two is
spelled.
-/

namespace Dotenv

/-- How a name or a value is spelled where it is written out. -/
inductive Spelling where
  | asIs
  | doubleQuoted
  | singleQuoted
  | custom (spell : Text → Text)

/-- Text between two copies of a wrapper. -/
def Text.enclosed (wrapper text : Text) : Text := wrapper ++ text ++ wrapper

def Spelling.apply : Spelling → Text → Text
  | .asIs, text => text
  | .doubleQuoted, text => text.quoted
  | .singleQuoted, text => text.singleQuoted
  | .custom spell, text => spell text

/-- How variables are written as lines.  The separator after the keyword is
written only where there is a keyword. -/
structure Layout where
  keyword : Text
  keywordSeparator : Text
  valueSeparator : Text
  nameSpelling : Spelling
  valueSpelling : Spelling

namespace Layout

/-- Lines that a shell reads: `export NAME=VALUE`. -/
def shellExport : Layout where
  keyword := "export".toList
  keywordSeparator := " ".toList
  valueSeparator := "=".toList
  nameSpelling := .asIs
  valueSpelling := .asIs

/-- Plain `NAME=VALUE` lines. -/
def dotenv : Layout := { shellExport with keyword := [] }

/-- What stands on a line before the name. -/
def lead (layout : Layout) : Text :=
  if layout.keyword.isEmpty then [] else layout.keyword ++ layout.keywordSeparator

def line (layout : Layout) (entry : Variable) : Text :=
  layout.lead ++ layout.nameSpelling.apply entry.name ++ layout.valueSeparator ++
    layout.valueSpelling.apply entry.value ++ ['\n']

/-- The lines of variables, in their order. -/
def render (layout : Layout) (listed : List Variable) : Text :=
  listed.flatMap layout.line

/-- The lines of a map, in name order. -/
def renderMap (layout : Layout) (map : VariableMap) : Text :=
  layout.render map.toVariables

@[simp]
theorem render_nil (layout : Layout) : layout.render [] = [] := rfl

@[simp]
theorem render_cons (layout : Layout) (entry : Variable) (rest : List Variable) :
    layout.render (entry :: rest) = layout.line entry ++ layout.render rest := rfl

end Layout

end Dotenv
