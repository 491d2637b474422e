import Dotenv.Variable.Json

/-!
# The grammar of JSON

Strings, objects of strings and arrays are told by the grammar of the standard alone: blanks
may stand around every token, and each character of a string may be written as itself or by
any of its escapes.  Every way of writing objects and arrays here keeps to that grammar.
-/

namespace Dotenv

namespace Json

/-- A hexadecimal digit of either case with its value. -/
def IsHexDigit (digit : Char) (value : Nat) : Prop :=
  "0123456789abcdef".toList[value]? = some digit ∨ "0123456789ABCDEF".toList[value]? = some digit

/-- Four hexadecimal digits with the number that they write. -/
inductive IsCodeUnit : Text → Nat → Prop
  | digits {first second third fourth : Char} {high upper lower low : Nat}
      (isFirst : IsHexDigit first high) (isSecond : IsHexDigit second upper)
      (isThird : IsHexDigit third lower) (isFourth : IsHexDigit fourth low) :
      IsCodeUnit [first, second, third, fourth] (((high * 16 + upper) * 16 + lower) * 16 + low)

/-- The letters that may stand behind a backslash, each with its character. -/
def shortEscapes : List (Char × Char) :=
  [('"', '"'), ('\\', '\\'), ('/', '/'), ('b', '\x08'), ('f', '\x0c'), ('n', '\n'), ('r', '\r'),
    ('t', '\t')]

/-- What may stand in a string for a character: the character itself, an escape with a letter
or with its number, or two escapes with the halves of a surrogate pair. -/
inductive IsCharacter : Text → Char → Prop
  | plain {character : Char} (notQuote : character ≠ '"') (notBackslash : character ≠ '\\')
      (notControl : 0x20 ≤ character.toNat) : IsCharacter [character] character
  | short {letter character : Char} (known : (letter, character) ∈ shortEscapes) :
      IsCharacter ['\\', letter] character
  | unit {digits : Text} {character : Char} (isUnit : IsCodeUnit digits character.toNat) :
      IsCharacter ('\\' :: 'u' :: digits) character
  | pair {first second : Text} {character : Char} {high low : Nat}
      (isFirst : IsCodeUnit first (0xD800 + high)) (isSecond : IsCodeUnit second (0xDC00 + low))
      (highBound : high < 0x400) (lowBound : low < 0x400)
      (number : character.toNat = 0x10000 + high * 0x400 + low) :
      IsCharacter ('\\' :: 'u' :: first ++ '\\' :: 'u' :: second) character

/-- What stands between the quotes of a string. -/
inductive IsContent : Text → Text → Prop
  | nil : IsContent [] []
  | cons {spelling inside content : Text} {character : Char}
      (own : IsCharacter spelling character) (later : IsContent inside content) :
      IsContent (spelling ++ inside) (character :: content)

inductive IsString : Text → Text → Prop
  | quoted {inside content : Text} (isContent : IsContent inside content) :
      IsString ('"' :: inside ++ ['"']) content

/-- Blanks between tokens. -/
def AreBlanks (text : Text) : Prop := ∀ character ∈ text, character ∈ [' ', '\t', '\n', '\r']

section Spelled

variable {Item : Type} (spells : Text → Item → Prop)

/-- Something with blanks around it. -/
inductive IsSpaced : Text → Item → Prop
  | around {before core after : Text} {item : Item} (blankBefore : AreBlanks before)
      (blankAfter : AreBlanks after) (own : spells core item) :
      IsSpaced (before ++ (core ++ after)) item

/-- At least one item, with blanks around and commas between the items. -/
inductive AreItems : Text → List Item → Prop
  | last {text : Text} {item : Item} (own : IsSpaced spells text item) : AreItems text [item]
  | more {text rest : Text} {item : Item} {items : List Item} (own : IsSpaced spells text item)
      (later : AreItems rest items) : AreItems (text ++ ',' :: rest) (item :: items)

/-- Items between an opening and a closing mark. -/
inductive IsEnclosed (opening closing : Char) : Text → List Item → Prop
  | empty {blanks : Text} (areBlanks : AreBlanks blanks) :
      IsEnclosed opening closing (opening :: blanks ++ [closing]) []
  | items {text : Text} {items : List Item} (areItems : AreItems spells text items) :
      IsEnclosed opening closing (opening :: text ++ [closing]) items

end Spelled

/-- A key and a value that are strings. -/
inductive IsMember : Text → Text × Text → Prop
  | colon {key value before after : Text} {entry : Text × Text} (isKey : IsString key entry.1)
      (blankBefore : AreBlanks before) (blankAfter : AreBlanks after)
      (isValue : IsString value entry.2) :
      IsMember (key ++ (before ++ ':' :: (after ++ value))) entry

def IsObject : Text → List (Text × Text) → Prop := IsEnclosed IsMember '{' '}'

def IsArray {Item : Type} (spells : Text → Item → Prop) : Text → List Item → Prop :=
  IsEnclosed spells '[' ']'

theorem areBlanks_nil : AreBlanks [] := by
  intro character member
  cases member

theorem isSpaced_self {Item : Type} {spells : Text → Item → Prop} {text : Text} {item : Item}
    (own : spells text item) : IsSpaced spells text item := by
  have spaced := IsSpaced.around areBlanks_nil areBlanks_nil own
  rwa [List.nil_append, List.append_nil] at spaced

/-- What is written item by item, with blanks before each of the items and behind the last. -/
theorem areItems_intercalate {Item : Type} {spells : Text → Item → Prop} {write : Item → Text}
    (written : ∀ item, spells (write item) item) {lead tail : Text} (leadBlank : AreBlanks lead)
    (tailBlank : AreBlanks tail) (first : Item) (others : List Item) :
    AreItems spells
      (lead ++ ((',' :: lead).intercalate ((first :: others).map write) ++ tail))
      (first :: others) := by
  induction others generalizing first with
  | nil =>
      have own := IsSpaced.around leadBlank tailBlank (written first)
      simpa [List.intercalate] using AreItems.last own
  | cons second others ih =>
      have own := IsSpaced.around leadBlank areBlanks_nil (written first)
      have shape : lead ++ ((',' :: lead).intercalate
            ((first :: second :: others).map write) ++ tail) =
          (lead ++ (write first ++ [])) ++ ',' :: (lead ++ ((',' :: lead).intercalate
            ((second :: others).map write) ++ tail)) := by
        simp [List.intercalate]
      rw [shape]
      exact .more own (ih second)

theorem isArray_writeArray {Item : Type} {spells : Text → Item → Prop} {write : Item → Text}
    (written : ∀ item, spells (write item) item) (items : List Item) :
    IsArray spells (writeArray (items.map write)) items := by
  cases items with
  | nil => exact .empty areBlanks_nil
  | cons first others =>
      have areItems := areItems_intercalate written areBlanks_nil areBlanks_nil first others
      rw [List.nil_append, List.append_nil] at areItems
      exact .items areItems

/-- Only blanks stand between the tokens of an object. -/
def Spacing.IsBlank (spacing : Spacing) : Prop :=
  AreBlanks spacing.lead ∧ AreBlanks spacing.gap ∧ AreBlanks spacing.tail

theorem Spacing.isBlank_compact : compact.IsBlank :=
  ⟨areBlanks_nil, areBlanks_nil, areBlanks_nil⟩

theorem Spacing.isBlank_lines : lines.IsBlank := by
  simp [IsBlank, lines, AreBlanks]

theorem isObject_writeObject {quote : Text → Text} (quotes : ∀ text, IsString (quote text) text)
    {spacing : Spacing} (blank : spacing.IsBlank) (entries : List (Text × Text)) :
    IsObject (writeObject quote spacing entries) entries := by
  obtain ⟨leadBlank, gapBlank, tailBlank⟩ := blank
  have members (entry : Text × Text) : IsMember (member quote spacing.gap entry) entry :=
    .colon (quotes entry.1) areBlanks_nil gapBlank (quotes entry.2)
  cases entries with
  | nil => exact .empty areBlanks_nil
  | cons first others =>
      exact .items (areItems_intercalate members leadBlank tailBlank first others)

end Json

end Dotenv
