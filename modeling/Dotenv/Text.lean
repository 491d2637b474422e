/-!
# Text

Text is a list of characters, so that a definition on text recurses on it.
Offsets into text count the bytes of its UTF-8 form, columns count characters.
-/

namespace Dotenv

/-- A sequence of Unicode scalar values. -/
abbrev Text := List Char

namespace Text

/-- The number of bytes of the UTF-8 form. -/
def byteLength : Text → Nat
  | [] => 0
  | first :: rest => first.utf8Size + byteLength rest

/-- A natural number in decimal digits. -/
def decimal (number : Nat) : Text := Nat.toDigits 10 number

def joined (separator : String) (texts : List Text) : Text :=
  separator.toList.intercalate texts

/-- The blanks of a definition line: space and tab. -/
def isBlank (character : Char) : Bool :=
  character == ' ' || character == '\t'

/-- Text without the blanks it starts with. -/
def trimBlanks (text : Text) : Text := text.dropWhile isBlank

def hasLineFeed (text : Text) : Bool := text.contains '\n'

@[simp]
theorem byteLength_nil : byteLength [] = 0 := rfl

@[simp]
theorem byteLength_cons (first : Char) (rest : Text) :
    byteLength (first :: rest) = first.utf8Size + byteLength rest := rfl

@[simp]
theorem byteLength_append (first second : Text) :
    byteLength (first ++ second) = byteLength first + byteLength second := by
  induction first with
  | nil => simp
  | cons head tail ih =>
    simp [ih, Nat.add_assoc]

theorem decimal_inj {first second : Nat} (equal : decimal first = decimal second) :
    first = second := by
  have read := congrArg (fun digits => Nat.ofDigitChars 10 digits 0) equal
  simpa [decimal] using read

end Text

end Dotenv
