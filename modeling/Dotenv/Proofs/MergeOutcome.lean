import Dotenv.Proofs.Grounding

/-!
# The outcome of a merge

A merge succeeds exactly when no line is malformed and every reference names an
earlier definition.  Otherwise the first source that breaks one of the two decides
the fault, and a malformed line in it comes before an undefined name.
-/

namespace Dotenv

namespace VariableMap

section Definitions

variable {settings : Settings} {origin : Text} {map : VariableMap}
  {earlier listed : List Variable}

end Definitions

end VariableMap

/-- A text with its origin. -/
structure NamedText where
  origin : Text
  content : Text

namespace NamedText

/-- The text as a source. -/
def source (named : NamedText) : Source := .text named.origin named.content

/-- The definitions of texts, in merge order. -/
def definitions (allowBlank : Bool) (texts : List NamedText) : List Variable :=
  texts.flatMap fun named => named.content.definitions allowBlank

variable (settings : Settings) (tree : FileTree) {map : VariableMap}
  {earlier : List Variable}

theorem definitions_source {allowBlank : Bool} {named : NamedText}
    (wellFormed : named.content.IsWellFormed allowBlank) :
    named.source.definitions tree allowBlank = .ok (named.content.definitions allowBlank) :=
  Definitions.ofStream_encode_of_isWellFormed wellFormed named.origin

/-- The values on the lines of a text are expanded under every setting. -/
theorem isClean_of_mem_definitions {allowBlank : Bool} {text : Text} {entry : Variable}
    (member : entry ∈ text.definitions allowBlank) (strict : Bool) :
    entry.value.IsClean strict := by
  obtain ⟨line, -, defined⟩ := List.mem_filterMap.mp member
  have classified := Line.defined?_eq_some_iff.mp defined
  exact Value.isClean_of_isValid (Line.of_classify classified).2.1 strict

end NamedText

end Dotenv
