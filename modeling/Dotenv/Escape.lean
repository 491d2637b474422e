import Dotenv.Reference

/-!
# Escapes and stray dollar signs

A character is escaped when an odd number of backslashes stands right before it.
A dollar sign is stray when it is not escaped and begins no reference.
-/

namespace Dotenv

namespace Escape

/-- Whether the character after a text is escaped.  The text is given from its
end to its start. -/
def followsReversed (reversed : Text) : Bool :=
  (reversed.takeWhile (· == '\\')).length % 2 == 1

/-- The offsets at which a character would be escaped, in a text that starts at
an offset and stands after a text given in reverse. -/
def offsetsFrom (reversed : Text) (offset : Nat) : Text → List Nat
  | [] => if followsReversed reversed then [offset] else []
  | first :: rest =>
    (if followsReversed reversed then [offset] else []) ++
      offsetsFrom (first :: reversed) (offset + first.utf8Size) rest

/-- The byte offsets of a text, its end included, at which a character is
escaped. -/
def offsets (text : Text) : List Nat := offsetsFrom [] 0 text

/-- The number of characters before the first stray dollar sign, in a text that
stands after a text given in reverse. -/
def strayFrom (reversed : Text) : Text → Option Nat
  | [] => none
  | first :: rest =>
    if first == '$' && !followsReversed reversed && !Reference.begins (first :: rest) then
      some reversed.length
    else
      strayFrom (first :: reversed) rest

/-- The number of characters before the first stray dollar sign. -/
def stray? (text : Text) : Option Nat := strayFrom [] text

end Escape

end Dotenv
