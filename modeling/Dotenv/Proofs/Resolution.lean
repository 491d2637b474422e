import Dotenv.Expansion

/-!
# Resolving a text

The outcome of resolving a text depends on two questions alone: whether a stray
dollar sign counts and stands in it, and which of its references are absent.
-/

namespace Dotenv

namespace Text

/-- Dollar signs do not keep a text from being expanded: they do not count, or
none is stray. -/
def IsClean (strict : Bool) (text : Text) : Prop :=
  strict = true → Escape.stray? text = none

theorem expandWith_of_isClean {strict : Bool} {text : Text}
    (clean : text.IsClean strict) (map : VariableMap) :
    text.expandWith strict map = .ok (text.expand map) := by
  cases strict with
  | false => rfl
  | true =>
      simp only [expandWith, checkReferences, clean rfl]
      rfl

theorem resolve_of_isClean {strict : Bool} {text : Text}
    (clean : text.IsClean strict) (map : VariableMap)
    (definition : Option Text) (origin : Text) :
    text.resolve strict map definition origin =
      if (text.expand map).missing = [] then
        .ok (text.expand map).text
      else
        .error (.undefinedReference definition origin (text.expand map).missing) := by
  rw [resolve, expandWith_of_isClean clean]
  simp only [Except.bind, Expansion.isResolved, List.isEmpty_iff]

theorem resolve_of_stray {text : Text} {before : Nat}
    (stray : Escape.stray? text = some before) (map : VariableMap)
    (definition : Option Text) (origin : Text) :
    text.resolve true map definition origin =
      .error (.invalidReference none (before + 1)) := by
  simp only [resolve, expandWith, checkReferences, stray]
  rfl

/-- Either nothing stray counts in a text, or the references are strict and
something stray stands at a known place. -/
theorem isClean_or_stray (strict : Bool) (text : Text) :
    text.IsClean strict ∨
      strict = true ∧ ∃ before, Escape.stray? text = some before := by
  cases strict with
  | false =>
      left
      intro isTrue
      cases isTrue
  | true =>
      cases stray : Escape.stray? text with
      | none => exact .inl fun _ => stray
      | some before => exact .inr ⟨rfl, before, rfl⟩

end Text

end Dotenv
