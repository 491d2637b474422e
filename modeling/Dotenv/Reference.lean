import Dotenv.Name

/-!
# References

A reference names a variable inside a text, as `$name` or `${name}`.  A bare
reference takes the longest name that stands there.  Every text falls into
references and single characters: reading from the left, a reference is taken
wherever one begins, and nothing hides it.
-/

namespace Dotenv

/-- A reference to a variable, with or without braces around its name. -/
structure Reference where
  name : Text
  braced : Bool
  deriving DecidableEq, Repr

namespace Reference

def text (reference : Reference) : Text :=
  if reference.braced then
    '$' :: '{' :: reference.name ++ ['}']
  else
    '$' :: reference.name

/-- The reference that a text begins with, and the text after it. -/
def next? : Text → Option (Reference × Text)
  | '$' :: '{' :: rest =>
    match Name.leading? rest with
    | some (name, '}' :: after) => some (⟨name, true⟩, after)
    | _ => none
  | '$' :: rest =>
    (Name.leading? rest).map fun found => (⟨found.1, false⟩, found.2)
  | _ => none

def begins (text : Text) : Bool := (next? text).isSome

theorem append_of_next? {text after : Text} {reference : Reference}
    (found : next? text = some (reference, after)) :
    reference.text ++ after = text := by
  unfold next? at found
  split at found
  · split at found
    · rename_i name closed leading
      cases found
      have joined := Name.append_of_leading? leading
      simp [Reference.text, ← joined]
    · cases found
  · obtain ⟨split, leading, equal⟩ := Option.map_eq_some_iff.mp found
    cases equal
    have joined := Name.append_of_leading? leading
    simp [Reference.text, joined]
  · cases found

theorem length_pos (reference : Reference) : 0 < reference.text.length := by
  unfold Reference.text
  split <;> simp

theorem length_lt_of_next? {text after : Text} {reference : Reference}
    (found : next? text = some (reference, after)) :
    after.length < text.length := by
  have joined := congrArg List.length (append_of_next? found)
  have positive := reference.length_pos
  rw [List.length_append] at joined
  omega

@[simp]
theorem next?_nil : next? [] = none := rfl

end Reference

/-- What a text falls into: references, and characters outside of them. -/
inductive Piece where
  | literal (character : Char)
  | token (reference : Reference)
  deriving DecidableEq, Repr

def Piece.text : Piece → Text
  | .literal character => [character]
  | .token reference => reference.text

def Piece.reference? : Piece → Option Reference
  | .literal _ => none
  | .token reference => some reference

namespace Text

/-- The pieces of a text from left to right. -/
def pieces : Text → List Piece
  | [] => []
  | first :: rest =>
    match _found : Reference.next? (first :: rest) with
    | some (reference, after) => .token reference :: pieces after
    | none => .literal first :: pieces rest
termination_by text => text.length
decreasing_by
  · exact Reference.length_lt_of_next? _found
  · simp

/-- The references of a text from left to right. -/
def references (text : Text) : List Reference :=
  text.pieces.filterMap Piece.reference?

@[simp]
theorem pieces_nil : pieces [] = [] := by
  rw [pieces]

theorem pieces_of_next? {text after : Text} {reference : Reference}
    (found : Reference.next? text = some (reference, after)) :
    pieces text = .token reference :: pieces after := by
  cases text with
  | nil => simp at found
  | cons first rest =>
    rw [pieces]
    split
    · rename_i other remaining equal
      rw [found] at equal
      cases equal
      rfl
    · rename_i absent
      rw [found] at absent
      cases absent

theorem pieces_of_not_next? {first : Char} {rest : Text}
    (absent : Reference.next? (first :: rest) = none) :
    pieces (first :: rest) = .literal first :: pieces rest := by
  rw [pieces]
  split
  · rename_i equal
    rw [absent] at equal
    cases equal
  · rfl

/-- Nothing is lost in pieces: written one after the other they are the text. -/
theorem flatMap_text_pieces (text : Text) : text.pieces.flatMap Piece.text = text := by
  fun_induction pieces text with
  | case1 => rfl
  | case2 first rest reference after found ih =>
    simpa [Piece.text, ih] using Reference.append_of_next? found
  | case3 first rest absent ih =>
    simp [Piece.text, ih]

end Text

/-- A reference with the byte offsets where it starts and ends. -/
structure Reference.Span where
  start : Nat
  stop : Nat
  reference : Reference
  deriving DecidableEq, Repr

/-- The references among pieces whose first one stands at an offset. -/
def Piece.spansFrom (offset : Nat) : List Piece → List Reference.Span
  | [] => []
  | .literal character :: rest => spansFrom (offset + character.utf8Size) rest
  | .token reference :: rest =>
    let stop := offset + Text.byteLength reference.text
    ⟨offset, stop, reference⟩ :: spansFrom stop rest

/-- The references of a text with the places where they stand. -/
def Text.referenceSpans (text : Text) : List Reference.Span :=
  Piece.spansFrom 0 text.pieces

end Dotenv
