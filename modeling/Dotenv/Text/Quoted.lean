import Dotenv.Text

/-!
# Quoted text

A value may stand between two double quotes.  Taking that one layer off leaves
every other text as it is.
-/

namespace Dotenv

namespace Text

def quoted (text : Text) : Text := '"' :: text ++ ['"']

def singleQuoted (text : Text) : Text := '\'' :: text ++ ['\'']

/-- Take off one layer of double quotes, if the text has one.  A single quote
character is no layer. -/
def unquoted : Text → Text
  | '"' :: rest => if rest.getLast? = some '"' then rest.dropLast else '"' :: rest
  | text => text

@[simp]
theorem unquoted_quoted (text : Text) : unquoted (quoted text) = text := by
  simp [quoted, unquoted]

theorem unquoted_sublist (text : Text) : text.unquoted.Sublist text := by
  unfold unquoted
  split
  · rename_i rest
    split
    · exact (List.dropLast_sublist rest).trans (List.sublist_cons_self _ rest)
    · exact List.Sublist.refl _
  · exact List.Sublist.refl text

end Text

end Dotenv
