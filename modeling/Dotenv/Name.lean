import Dotenv.Text

/-!
# Variable names

A name is a letter followed by letters, digits, underscores and hyphens.  Only
ASCII letters and digits count.
-/

namespace Dotenv

namespace Name

/-- The characters that a name may start with. -/
def isFirst (character : Char) : Bool := character.isAlpha

/-- The characters that may follow in a name. -/
def isLater (character : Char) : Bool :=
  character.isAlphanum || character == '_' || character == '-'

/-- Whether a whole text is a name. -/
def isValid : Text → Bool
  | [] => false
  | first :: later => isFirst first && later.all isLater

/-- The longest name that a text starts with, and the text after it. -/
def leading? : Text → Option (Text × Text)
  | [] => none
  | first :: rest =>
    if isFirst first then
      some (first :: rest.takeWhile isLater, rest.dropWhile isLater)
    else
      none

theorem append_of_leading? {text name after : Text}
    (found : leading? text = some (name, after)) : name ++ after = text := by
  cases text with
  | nil => simp [leading?] at found
  | cons first rest =>
    simp only [leading?, Option.ite_none_right_eq_some, Option.some.injEq,
      Prod.mk.injEq] at found
    obtain ⟨_, rfl, rfl⟩ := found
    simp

theorem isValid_of_leading? {text name after : Text}
    (found : leading? text = some (name, after)) : isValid name = true := by
  cases text with
  | nil => simp [leading?] at found
  | cons first rest =>
    simp only [leading?, Option.ite_none_right_eq_some, Option.some.injEq,
      Prod.mk.injEq] at found
    obtain ⟨head, rfl, rfl⟩ := found
    simp only [isValid, head, Bool.true_and, List.all_takeWhile]

end Name

end Dotenv
