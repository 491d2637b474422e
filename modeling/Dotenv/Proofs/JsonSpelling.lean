import Dotenv.Proofs.JsonGrammar
import Mathlib.Data.List.Forall2

/-!
# Spelled JSON values

A text spells a value if the reader takes it for this value whatever follows.  Every string,
object and array of the grammar spells the value that it is made for.  The reader is given
two steps for each character, which is enough because every second step takes one.
-/

namespace Dotenv

namespace Json

theorem hexDigit?_of_isHexDigit {digit : Char} {value : Nat} (isDigit : IsHexDigit digit value) :
    hexDigit? digit = some value := by
  have lower : ∀ index : Fin 16,
      hexDigit? ("0123456789abcdef".toList.get index) = some index.val := by decide
  have upper : ∀ index : Fin 16,
      hexDigit? ("0123456789ABCDEF".toList.get index) = some index.val := by decide
  rcases isDigit with found | found
  · obtain ⟨bound, equal⟩ := List.getElem?_eq_some_iff.mp found
    exact equal ▸ lower ⟨value, bound⟩
  · obtain ⟨bound, equal⟩ := List.getElem?_eq_some_iff.mp found
    exact equal ▸ upper ⟨value, bound⟩

theorem exists_of_isCodeUnit {digits : Text} {unit : Nat} (isUnit : IsCodeUnit digits unit) :
    ∃ first second third fourth, digits = [first, second, third, fourth] ∧
      codeUnit? first second third fourth = some unit := by
  obtain ⟨isFirst, isSecond, isThird, isFourth⟩ := isUnit
  refine ⟨_, _, _, _, rfl, ?_⟩
  rw [codeUnit?, hexDigit?_of_isHexDigit isFirst, hexDigit?_of_isHexDigit isSecond,
    hexDigit?_of_isHexDigit isThird, hexDigit?_of_isHexDigit isFourth]
  rfl

section Unit

variable {digits : Text} {unit : Nat} (isUnit : IsCodeUnit digits unit) (rest : Text)

include isUnit

theorem readStringAfter_other (notTrailing : isTrailing unit = false)
    (notLeading : isLeading unit = false) :
    readStringAfter none ('\\' :: 'u' :: (digits ++ rest)) =
      (readStringAfter none rest).map (.prepend (Char.ofNat unit)) := by
  obtain ⟨first, second, third, fourth, rfl, number⟩ := exists_of_isCodeUnit isUnit
  simp only [List.cons_append, List.nil_append, readStringAfter, number, notTrailing, notLeading]
  rfl

theorem readStringAfter_leading (notTrailing : isTrailing unit = false)
    (leading : isLeading unit = true) :
    readStringAfter none ('\\' :: 'u' :: (digits ++ rest)) = readStringAfter (some unit) rest := by
  obtain ⟨first, second, third, fourth, rfl, number⟩ := exists_of_isCodeUnit isUnit
  simp only [List.cons_append, List.nil_append, readStringAfter, number, notTrailing, leading]
  cases readStringAfter (some unit) rest <;> rfl

theorem readStringAfter_trailing (trailing : isTrailing unit = true) (half : Nat) :
    readStringAfter (some half) ('\\' :: 'u' :: (digits ++ rest)) =
      (readStringAfter none rest).map (.prepend (ofPair half unit)) := by
  obtain ⟨first, second, third, fourth, rfl, number⟩ := exists_of_isCodeUnit isUnit
  simp only [List.cons_append, List.nil_append, readStringAfter, number, trailing, if_true]

end Unit

theorem readStringAfter_short {letter character : Char}
    (known : shortEscape? letter = some character) (rest : Text) :
    readStringAfter none ('\\' :: letter :: rest) =
      (readStringAfter none rest).map (.prepend character) := by
  rw [readStringAfter]
  · rw [known]
    rfl
  · intro first second third fourth after equal
    cases equal
    cases known

theorem readStringAfter_plain {character : Char} (notQuote : character ≠ '"')
    (notBackslash : character ≠ '\\') (notControl : ¬ character.toNat < 0x20) (rest : Text) :
    readStringAfter none (character :: rest) =
      (readStringAfter none rest).map (.prepend character) := by
  rw [readStringAfter]
  · rw [if_neg (by simp [notControl, notBackslash])]
    rfl
  · exact notQuote
  · intro first second third fourth after equal
    exact absurd equal notBackslash
  · intro letter after equal
    exact absurd equal notBackslash

/-- No character is half of a surrogate pair. -/
theorem not_surrogate (character : Char) :
    isTrailing character.toNat = false ∧ isLeading character.toNat = false := by
  have scalar := character.valid
  simp only [isTrailing, isLeading, Bool.and_eq_false_iff, decide_eq_false_iff_not]
  change character.toNat < _ ∨ _ < character.toNat ∧ character.toNat < _ at scalar
  omega

/-- A character is read from whatever may stand for it. -/
theorem readStringAfter_of_isCharacter {spelling : Text} {character : Char}
    (spelled : IsCharacter spelling character) (rest : Text) :
    readStringAfter none (spelling ++ rest) =
      (readStringAfter none rest).map (.prepend character) := by
  cases spelled with
  | plain notQuote notBackslash notControl =>
      exact readStringAfter_plain notQuote notBackslash (Nat.not_lt.mpr notControl) rest
  | short known =>
      have letters : ∀ escape ∈ shortEscapes, shortEscape? escape.1 = some escape.2 := by
        simp [shortEscapes, shortEscape?]
      exact readStringAfter_short (letters _ known) rest
  | unit isUnit =>
      obtain ⟨notTrailing, notLeading⟩ := not_surrogate character
      have read := readStringAfter_other isUnit rest notTrailing notLeading
      rwa [Char.ofNat_toNat] at read
  | @pair first second _ high low isFirst isSecond highBound lowBound number =>
      have leading : isTrailing (0xD800 + high) = false ∧ isLeading (0xD800 + high) = true := by
        simp only [isTrailing, isLeading, Bool.and_eq_false_iff, Bool.and_eq_true,
          decide_eq_false_iff_not, decide_eq_true_iff]
        omega
      have trailing : isTrailing (0xDC00 + low) = true := by
        simp only [isTrailing, Bool.and_eq_true, decide_eq_true_iff]
        omega
      have joined : ofPair (0xD800 + high) (0xDC00 + low) = character := by
        rw [ofPair, Nat.add_sub_cancel_left, Nat.add_sub_cancel_left, ← number,
          Char.ofNat_toNat]
      have shape : '\\' :: 'u' :: first ++ '\\' :: 'u' :: second ++ rest =
          '\\' :: 'u' :: (first ++ '\\' :: 'u' :: (second ++ rest)) := by simp
      rw [shape, readStringAfter_leading isFirst _ leading.1 leading.2,
        readStringAfter_trailing isSecond _ trailing, joined]

/-- A string is read to its closing quote. -/
theorem readString_of_isContent {inside content : Text} (spelled : IsContent inside content)
    (rest : Text) : readString (inside ++ '"' :: rest) = some ⟨some content, rest⟩ := by
  rw [readString]
  induction spelled with
  | nil =>
      rw [List.nil_append, readStringAfter]
      rfl
  | cons own later ih =>
      rw [List.append_assoc, readStringAfter_of_isCharacter own, ih]
      rfl

/-- A string begins with a quote, behind which the reader finds its content. -/
theorem exists_of_isString {text content : Text} (spelled : IsString text content) (rest : Text) :
    ∃ after, text ++ rest = '"' :: after ∧ readString after = some ⟨some content, rest⟩ := by
  obtain ⟨isContent⟩ := spelled
  refine ⟨_, ?_, readString_of_isContent isContent rest⟩
  simp

theorem skipBlanks_append {blanks : Text} (areBlanks : AreBlanks blanks) (rest : Text) :
    skipBlanks (blanks ++ rest) = skipBlanks rest := by
  apply List.dropWhile_append_of_pos
  intro character member
  have blank := areBlanks character member
  simp only [List.mem_cons, List.not_mem_nil, or_false] at blank
  rcases blank with rfl | rfl | rfl | rfl <;> rfl

theorem skipBlanks_cons {first : Char} (token : isBlank first = false) (rest : Text) :
    skipBlanks (first :: rest) = first :: rest := by
  simp [skipBlanks, token]

theorem skipBlanks_append_cons {blanks : Text} (areBlanks : AreBlanks blanks) {first : Char}
    (token : isBlank first = false) (rest : Text) :
    skipBlanks (blanks ++ first :: rest) = first :: rest := by
  rw [skipBlanks_append areBlanks, skipBlanks_cons token]

theorem readValue_append {blanks : Text} (areBlanks : AreBlanks blanks) (steps : Nat)
    (text : Text) : readValue steps (blanks ++ text) = readValue steps text := by
  cases steps with
  | zero => rw [readValue, readValue]
  | succ steps => rw [readValue, readValue, skipBlanks_append areBlanks]

/-- A text spells a value if it is read as this value with any text behind it, given two steps
for each of its characters. -/
def Spells (text : Text) (value : Json) : Prop :=
  ∀ steps rest, 2 * text.length < steps → readValue steps (text ++ rest) = some (value, rest)

theorem readValue_of_scalar {text rest : Text} {first : Char}
    (token : skipBlanks text = first :: rest) (notArray : first ≠ '[') (notObject : first ≠ '{')
    (steps : Nat) : readValue (steps + 1) text = readScalar (first :: rest) := by
  rw [readValue, token]
  split
  · rename_i equal
    cases equal
    exact absurd rfl notArray
  · rename_i equal
    cases equal
    exact absurd rfl notObject
  · rfl

theorem spells_of_isString {text content : Text} (spelled : IsString text content) :
    Spells text (.string (some content)) := by
  intro steps rest enough
  obtain ⟨after, shape, read⟩ := exists_of_isString spelled rest
  cases steps with
  | zero => omega
  | succ steps =>
      have token : skipBlanks (text ++ rest) = '"' :: after := by
        rw [shape, skipBlanks_cons rfl]
      rw [readValue_of_scalar token (by decide) (by decide), readScalar, read]
      rfl

/-- No value begins with a bracket that closes an array. -/
theorem Spells.skipBlanks_ne {text : Text} {value : Json} (spells : Spells text value)
    (rest after : Text) : skipBlanks (text ++ rest) ≠ ']' :: after := by
  intro closing
  have read := spells (2 * text.length + 1) rest (by omega)
  rw [readValue_of_scalar closing (by decide) (by decide)] at read
  have nothing : readScalar (']' :: after) = none := rfl
  rw [nothing] at read
  cases read

theorem readValue_of_items {text rest : Text} (token : skipBlanks text = '[' :: rest)
    (nonempty : ∀ after, skipBlanks rest ≠ ']' :: after) (steps : Nat) :
    readValue (steps + 1) text =
      (readItems steps rest).map fun read => (.array read.1, read.2) := by
  simp only [readValue, token]

theorem readValue_of_members {text rest : Text} (token : skipBlanks text = '{' :: rest)
    (nonempty : ∀ after, skipBlanks rest ≠ '}' :: after) (steps : Nat) :
    readValue (steps + 1) text =
      (readMembers steps rest).map fun read => (.object read.1, read.2) := by
  simp only [readValue, token]

section Steps

variable {text afterKey after rest : Text} {value : Json} {key : Option Text} {steps : Nat}

theorem readItems_last (read : readValue steps text = some (value, after))
    (closing : skipBlanks after = ']' :: rest) :
    readItems (steps + 1) text = some ([value], rest) := by
  simp only [readItems, read, Option.bind_some, closing]

theorem readItems_comma (read : readValue steps text = some (value, after))
    (comma : skipBlanks after = ',' :: rest) :
    readItems (steps + 1) text =
      (readItems steps rest).map fun later => (value :: later.1, later.2) := by
  simp only [readItems, read, Option.bind_some, comma]

theorem readMembers_last (readKey : readKey (skipBlanks text) = some (key, afterKey))
    (read : readValue steps afterKey = some (value, after))
    (closing : skipBlanks after = '}' :: rest) :
    readMembers (steps + 1) text = some ([(key, value)], rest) := by
  simp only [readMembers, readKey, read, Option.bind_some, closing]

theorem readMembers_comma (readKey : readKey (skipBlanks text) = some (key, afterKey))
    (read : readValue steps afterKey = some (value, after))
    (comma : skipBlanks after = ',' :: rest) :
    readMembers (steps + 1) text =
      (readMembers steps rest).map fun later => ((key, value) :: later.1, later.2) := by
  simp only [readMembers, readKey, read, Option.bind_some, comma]

end Steps

theorem exists_of_isSpaced {Item : Type} {spells : Text → Item → Prop} {text : Text} {item : Item}
    (spaced : IsSpaced spells text item) :
    ∃ before core after, text = before ++ (core ++ after) ∧ AreBlanks before ∧ AreBlanks after ∧
      spells core item := by
  obtain ⟨blankBefore, blankAfter, own⟩ := spaced
  exact ⟨_, _, _, rfl, blankBefore, blankAfter, own⟩

/-- A spelled item is read in front of a token, and only the token is left behind it. -/
theorem exists_readValue_of_isSpaced {text : Text} {value : Json}
    (spaced : IsSpaced Spells text value) {token : Char} (solid : isBlank token = false)
    (rest : Text) (steps : Nat) (enough : 2 * text.length < steps) :
    ∃ after, readValue steps (text ++ token :: rest) = some (value, after) ∧
      skipBlanks after = token :: rest := by
  obtain ⟨before, core, after, rfl, blankBefore, blankAfter, own⟩ := exists_of_isSpaced spaced
  refine ⟨after ++ token :: rest, ?_, skipBlanks_append_cons blankAfter solid rest⟩
  simp only [List.length_append] at enough
  rw [List.append_assoc, List.append_assoc, readValue_append blankBefore]
  exact own steps _ (by omega)

/-- Items are read up to the end of their array. -/
theorem readItems_of_areItems {text : Text} {values : List Json}
    (spelled : AreItems Spells text values) (rest : Text) (steps : Nat)
    (enough : 2 * text.length + 1 < steps) :
    readItems steps (text ++ ']' :: rest) = some (values, rest) := by
  induction spelled generalizing steps with
  | last own =>
      cases steps with
      | zero => omega
      | succ steps =>
          obtain ⟨after, read, closing⟩ :=
            exists_readValue_of_isSpaced own (rfl : isBlank ']' = false) rest steps (by omega)
          exact readItems_last read closing
  | @more text others value values own later ih =>
      rw [List.length_append, List.length_cons] at enough
      cases steps with
      | zero => omega
      | succ steps =>
          obtain ⟨after, read, comma⟩ := exists_readValue_of_isSpaced own
            (rfl : isBlank ',' = false) (others ++ ']' :: rest) steps (by omega)
          rw [List.append_assoc, List.cons_append, readItems_comma read comma,
            ih steps (by omega)]
          rfl

/-- No item of an array begins with the bracket that closes it. -/
theorem AreItems.skipBlanks_ne {text : Text} {values : List Json}
    (spelled : AreItems Spells text values) (rest after : Text) :
    skipBlanks (text ++ rest) ≠ ']' :: after := by
  have first {text : Text} {value : Json} (own : IsSpaced Spells text value) (rest : Text) :
      skipBlanks (text ++ rest) ≠ ']' :: after := by
    obtain ⟨before, core, behind, rfl, blankBefore, -, spells⟩ := exists_of_isSpaced own
    rw [List.append_assoc, List.append_assoc, skipBlanks_append blankBefore]
    exact spells.skipBlanks_ne _ _
  cases spelled with
  | last own => exact first own rest
  | more own later =>
      rw [List.append_assoc]
      exact first own _

/-- An array of texts that spell values spells the array of these values. -/
theorem spells_of_isArray {text : Text} {values : List Json}
    (spelled : IsArray Spells text values) : Spells text (.array values) := by
  intro steps rest enough
  have solid : isBlank '[' = false := rfl
  cases spelled with
  | @empty blanks areBlanks =>
      have token := skipBlanks_cons solid (blanks ++ ']' :: rest)
      have closing := skipBlanks_append_cons areBlanks (rfl : isBlank ']' = false) rest
      have shape : '[' :: blanks ++ [']'] ++ rest = '[' :: (blanks ++ ']' :: rest) := by simp
      cases steps with
      | zero => omega
      | succ steps =>
          rw [shape]
          simp only [readValue, token, closing]
  | @items text values areItems =>
      have token := skipBlanks_cons solid (text ++ ']' :: rest)
      have shape : '[' :: text ++ [']'] ++ rest = '[' :: (text ++ ']' :: rest) := by simp
      simp only [List.length_append, List.length_cons, List.length_nil] at enough
      cases steps with
      | zero => omega
      | succ steps =>
          rw [shape, readValue_of_items token (areItems.skipBlanks_ne _),
            readItems_of_areItems areItems rest steps (by omega)]
          rfl

/-- The object of texts by their keys. -/
def ofEntries (entries : List (Text × Text)) : Json :=
  .object (entries.map fun entry => (some entry.1, .string (some entry.2)))

/-- A member is read in two parts in front of a token, and only the token is left behind it. -/
theorem exists_readKey_of_isSpaced {text : Text} {entry : Text × Text}
    (spaced : IsSpaced IsMember text entry) {token : Char} (solid : isBlank token = false)
    (rest : Text) :
    ∃ afterKey after,
      readKey (skipBlanks (text ++ token :: rest)) = some (some entry.1, afterKey) ∧
      (∀ steps, 2 * text.length < steps →
        readValue steps afterKey = some (.string (some entry.2), after)) ∧
      skipBlanks after = token :: rest := by
  obtain ⟨before, core, after, rfl, blankBefore, blankAfter, own⟩ := exists_of_isSpaced spaced
  cases own with
  | @colon key value beforeColon afterColon _ isKey blankBeforeColon blankAfterColon isValue =>
      obtain ⟨inside, keyShape, keyRead⟩ := exists_of_isString isKey
        (beforeColon ++ ':' :: (afterColon ++ (value ++ (after ++ token :: rest))))
      refine ⟨afterColon ++ (value ++ (after ++ token :: rest)), after ++ token :: rest, ?_, ?_,
        skipBlanks_append_cons blankAfter solid rest⟩
      · have shape : before ++ (key ++ (beforeColon ++ ':' :: (afterColon ++ value)) ++ after) ++
            token :: rest = before ++ '"' :: inside := by
          rw [← keyShape]
          simp
        have colon := skipBlanks_append_cons blankBeforeColon (rfl : isBlank ':' = false)
          (afterColon ++ (value ++ (after ++ token :: rest)))
        rw [shape, skipBlanks_append_cons blankBefore rfl]
        simp only [readKey, keyRead, Option.bind_some, colon]
      · intro steps enough
        simp only [List.length_append, List.length_cons] at enough
        rw [readValue_append blankAfterColon]
        exact spells_of_isString isValue steps _ (by omega)

/-- Members are read up to the end of their object. -/
theorem readMembers_of_areItems {text : Text} {entries : List (Text × Text)}
    (spelled : AreItems IsMember text entries) (rest : Text) (steps : Nat)
    (enough : 2 * text.length + 1 < steps) :
    readMembers steps (text ++ '}' :: rest) =
      some (entries.map fun entry => (some entry.1, .string (some entry.2)), rest) := by
  induction spelled generalizing steps with
  | last own =>
      cases steps with
      | zero => omega
      | succ steps =>
          obtain ⟨afterKey, after, key, value, closing⟩ :=
            exists_readKey_of_isSpaced own (rfl : isBlank '}' = false) rest
          exact readMembers_last key (value steps (by omega)) closing
  | @more text others entry entries own later ih =>
      rw [List.length_append, List.length_cons] at enough
      cases steps with
      | zero => omega
      | succ steps =>
          obtain ⟨afterKey, after, key, value, comma⟩ :=
            exists_readKey_of_isSpaced own (rfl : isBlank ',' = false) (others ++ '}' :: rest)
          rw [List.append_assoc, List.cons_append,
            readMembers_comma key (value steps (by omega)) comma, ih steps (by omega)]
          rfl

/-- No member of an object begins with the brace that closes it. -/
theorem AreItems.skipBlanks_ne_brace {text : Text} {entries : List (Text × Text)}
    (spelled : AreItems IsMember text entries) (rest after : Text) :
    skipBlanks (text ++ '}' :: rest) ≠ '}' :: after := by
  have first {text : Text} {entry : Text × Text} (own : IsSpaced IsMember text entry)
      {token : Char} (solid : isBlank token = false) (rest : Text) :
      skipBlanks (text ++ token :: rest) ≠ '}' :: after := by
    obtain ⟨afterKey, behind, key, -⟩ := exists_readKey_of_isSpaced own solid rest
    intro closing
    rw [closing] at key
    cases key
  cases spelled with
  | last own => exact first own rfl rest
  | more own later =>
      rw [List.append_assoc, List.cons_append]
      exact first own rfl _

/-- An object of strings spells the object of these strings. -/
theorem spells_of_isObject {text : Text} {entries : List (Text × Text)}
    (spelled : IsObject text entries) : Spells text (ofEntries entries) := by
  intro steps rest enough
  have solid : isBlank '{' = false := rfl
  cases spelled with
  | @empty blanks areBlanks =>
      have token := skipBlanks_cons solid (blanks ++ '}' :: rest)
      have closing := skipBlanks_append_cons areBlanks (rfl : isBlank '}' = false) rest
      have shape : '{' :: blanks ++ ['}'] ++ rest = '{' :: (blanks ++ '}' :: rest) := by simp
      cases steps with
      | zero => omega
      | succ steps =>
          rw [shape]
          simp only [readValue, token, closing]
          rfl
  | @items text entries areItems =>
      have token := skipBlanks_cons solid (text ++ '}' :: rest)
      have shape : '{' :: text ++ ['}'] ++ rest = '{' :: (text ++ '}' :: rest) := by simp
      simp only [List.length_append, List.length_cons, List.length_nil] at enough
      cases steps with
      | zero => omega
      | succ steps =>
          rw [shape, readValue_of_members token (areItems.skipBlanks_ne_brace _),
            readMembers_of_areItems areItems rest steps (by omega)]
          rfl

/-- A document with a spelled value and blanks is read as this value. -/
theorem read?_of_isSpaced {document : Text} {value : Json}
    (spaced : IsSpaced Spells document value) : read? document = some value := by
  obtain ⟨before, core, after, rfl, blankBefore, blankAfter, own⟩ := exists_of_isSpaced spaced
  have nothing : skipBlanks after = [] := by
    rw [← List.append_nil after, skipBlanks_append blankAfter]
    rfl
  rw [read?, readValue_append blankBefore, own _ _ (by simp only [List.length_append]; omega),
    Option.bind_some, nothing]
  rfl

section Related

variable {Item : Type} {spells : Text → Item → Prop} {holds : Json → Item → Prop}
  (reads : ∀ text item, spells text item → ∃ value, Spells text value ∧ holds value item)

include reads

theorem exists_isSpaced {text : Text} {item : Item} (spaced : IsSpaced spells text item) :
    ∃ value, IsSpaced Spells text value ∧ holds value item := by
  obtain ⟨before, core, after, rfl, blankBefore, blankAfter, own⟩ := exists_of_isSpaced spaced
  obtain ⟨value, spelled, held⟩ := reads core item own
  exact ⟨value, .around blankBefore blankAfter spelled, held⟩

theorem exists_areItems {text : Text} {items : List Item} (areItems : AreItems spells text items) :
    ∃ values, AreItems Spells text values ∧ List.Forall₂ holds values items := by
  induction areItems with
  | last own =>
      obtain ⟨value, spaced, held⟩ := exists_isSpaced reads own
      exact ⟨[value], .last spaced, .cons held .nil⟩
  | more own later ih =>
      obtain ⟨value, spaced, held⟩ := exists_isSpaced reads own
      obtain ⟨values, others, allHeld⟩ := ih
      exact ⟨value :: values, .more spaced others, .cons held allHeld⟩

/-- An array spells values that are related to its items as the value of each item is. -/
theorem exists_spells_of_isArray {text : Text} {items : List Item}
    (isArray : IsArray spells text items) :
    ∃ values, Spells text (.array values) ∧ List.Forall₂ holds values items := by
  cases isArray with
  | empty areBlanks => exact ⟨[], spells_of_isArray (.empty areBlanks), .nil⟩
  | items areItems =>
      obtain ⟨values, spelled, held⟩ := exists_areItems reads areItems
      exact ⟨values, spells_of_isArray (.items spelled), held⟩

end Related

end Json

end Dotenv
