import Dotenv.Command.Run
import Dotenv.Proofs.JsonSpelling
import Dotenv.Text.Utf8.RoundTrip

/-!
# JSON read back

A standard writer escapes what has to be escaped and nothing else, and lays maps and lists of
variables out as objects and arrays.  A standard reader takes all that the grammar allows.
From this alone, what the writer has written is what the reader finds.  The writer and the
reader of this library are standard.
-/

namespace Dotenv

/-- A variable as an object of its two fields, in either order. -/
def Variable.IsObject (text : Text) (entry : Variable) : Prop :=
  Json.IsObject text entry.fields ∨ Json.IsObject text entry.fields.reverse

/-- What writes variables as JSON, character by character inside of strings, and what reads
them again. -/
structure JsonCodec where
  escape : Char → Text
  writeMap : VariableMap → Text
  writeMapLines : VariableMap → Text
  writeList : List Variable → Text
  readMap? : Text → Option VariableMap
  readList? : Text → Option (List Variable)

namespace JsonCodec

/-- The characters that cannot stand for themselves in a string. -/
def NeedsEscape (character : Char) : Prop :=
  character = '"' ∨ character = '\\' ∨ character.toNat < 0x20

def quote (codec : JsonCodec) (text : Text) : Text := '"' :: text.flatMap codec.escape ++ ['"']

/-- What is known of a writer and a reader that keep to the standard.  Characters that can
stand for themselves are not escaped, and all others are by an escape of the grammar.  A map is
an object in the order of its names, and a list of variables an array in its own order.  The
reader takes every document of the grammar; of several members with the same key, it keeps the
last one. -/
structure IsStandard (codec : JsonCodec) : Prop where
  escape_plain : ∀ character, ¬ NeedsEscape character → codec.escape character = [character]
  escape_special : ∀ character, NeedsEscape character →
    Json.IsCharacter (codec.escape character) character
  writeMap_eq : ∀ map, codec.writeMap map = Json.writeObject codec.quote .compact map.entries
  writeMapLines_eq : ∀ map,
    codec.writeMapLines map = Json.writeObject codec.quote .lines map.entries
  writeList_eq : ∀ listed, codec.writeList listed =
    Json.writeArray (listed.map fun entry => Json.writeObject codec.quote .compact entry.fields)
  readMap?_eq : ∀ document entries, Json.IsSpaced Json.IsObject document entries →
    codec.readMap? document = some (.ofList entries)
  readList?_eq : ∀ document listed, Json.IsSpaced (Json.IsArray Variable.IsObject) document listed →
    codec.readList? document = some listed

namespace IsStandard

variable {codec : JsonCodec} (standard : codec.IsStandard)

include standard

theorem isCharacter_escape (character : Char) :
    Json.IsCharacter (codec.escape character) character := by
  by_cases special : NeedsEscape character
  · exact standard.escape_special character special
  · rw [standard.escape_plain character special]
    simp only [NeedsEscape, not_or, Nat.not_lt] at special
    obtain ⟨notQuote, notBackslash, notControl⟩ := special
    exact .plain notQuote notBackslash notControl

theorem isString_quote (text : Text) : Json.IsString (codec.quote text) text := by
  apply Json.IsString.quoted
  induction text with
  | nil => exact .nil
  | cons character rest ih =>
      rw [List.flatMap_cons]
      exact .cons (standard.isCharacter_escape character) ih

theorem isObject_writeMap (map : VariableMap) :
    Json.IsObject (codec.writeMap map) map.entries := by
  rw [standard.writeMap_eq]
  exact Json.isObject_writeObject standard.isString_quote Json.Spacing.isBlank_compact _

theorem isObject_writeMapLines (map : VariableMap) :
    Json.IsObject (codec.writeMapLines map) map.entries := by
  rw [standard.writeMapLines_eq]
  exact Json.isObject_writeObject standard.isString_quote Json.Spacing.isBlank_lines _

theorem isArray_writeList (listed : List Variable) :
    Json.IsArray Variable.IsObject (codec.writeList listed) listed := by
  rw [standard.writeList_eq]
  refine Json.isArray_writeArray (fun entry => .inl ?_) listed
  exact Json.isObject_writeObject standard.isString_quote Json.Spacing.isBlank_compact _

end IsStandard

/-- The writer and the reader of this library. -/
def standard : JsonCodec where
  escape := Json.escaped
  writeMap := VariableMap.toJson
  writeMapLines := VariableMap.toIndentedJson
  writeList := Variable.listToJson
  readMap? := VariableMap.readJson?
  readList? := Variable.readListJson?

theorem escaped_of_not_needsEscape {character : Char} (plain : ¬ NeedsEscape character) :
    Json.escaped character = [character] := by
  simp only [NeedsEscape, not_or] at plain
  obtain ⟨notQuote, notBackslash, notControl⟩ := plain
  have other {control : Char} (isControl : control.toNat < 0x20) : character ≠ control := by
    rintro rfl
    exact notControl isControl
  simp [Json.escaped, notQuote, notBackslash, notControl, other (by decide : '\x08'.toNat < 0x20),
    other (by decide : '\t'.toNat < 0x20), other (by decide : '\n'.toNat < 0x20),
    other (by decide : '\x0c'.toNat < 0x20), other (by decide : '\r'.toNat < 0x20)]

theorem isHexDigit_digitChar {value : Nat} (bound : value < 16) :
    Json.IsHexDigit (Nat.digitChar value) value := by
  have digits : ∀ value < 16,
      "0123456789abcdef".toList[value]? = some (Nat.digitChar value) := by decide
  exact .inl (digits value bound)

theorem isCharacter_controlEscape {character : Char} (control : character.toNat < 0x20) :
    Json.IsCharacter (Json.controlEscape character.toNat) character := by
  have zero : Json.IsHexDigit '0' 0 := isHexDigit_digitChar (by decide)
  have isUnit := Json.IsCodeUnit.digits zero zero
    (isHexDigit_digitChar (by omega : character.toNat / 16 < 16))
    (isHexDigit_digitChar (by omega : character.toNat % 16 < 16))
  have number : ((0 * 16 + 0) * 16 + character.toNat / 16) * 16 + character.toNat % 16 =
      character.toNat := by omega
  rw [number] at isUnit
  exact .unit isUnit

theorem isCharacter_escaped {character : Char} (special : NeedsEscape character) :
    Json.IsCharacter (Json.escaped character) character := by
  have short {letter control : Char} (equal : character = control)
      (known : (letter, control) ∈ Json.shortEscapes) :
      Json.IsCharacter ['\\', letter] character := equal ▸ .short known
  unfold Json.escaped
  simp only [beq_iff_eq]
  split_ifs with quote backslash backspace tab lineFeed formFeed carriageReturn control
  · exact short quote (by decide)
  · exact short backslash (by decide)
  · exact short backspace (by decide)
  · exact short tab (by decide)
  · exact short lineFeed (by decide)
  · exact short formFeed (by decide)
  · exact short carriageReturn (by decide)
  · exact isCharacter_controlEscape control
  · exact absurd ((special.resolve_left quote).resolve_left backslash) control

/-- What is read item by item can be read as a list. -/
theorem mapM_eq_some_of_forall₂ {Written Item : Type} {read : Written → Option Item}
    {written : List Written} {items : List Item}
    (reads : List.Forall₂ (fun value item => read value = some item) written items) :
    written.mapM read = some items := by
  induction reads with
  | nil => rfl
  | cons own later ih =>
      rw [List.mapM_cons, own, ih]
      rfl

theorem ofJson?_ofEntries (entries : List (Text × Text)) :
    VariableMap.ofJson? (Json.ofEntries entries) = some (.ofList entries) := by
  have reads : List.Forall₂ (fun value item => VariableMap.textMember? value = some item)
      (entries.map fun entry => (some entry.1, Json.string (some entry.2))) entries := by
    rw [List.forall₂_map_left_iff, List.forall₂_same]
    exact fun entry _ => rfl
  rw [Json.ofEntries, VariableMap.ofJson?, mapM_eq_some_of_forall₂ reads]
  rfl

theorem exists_spells_of_isVariable (text : Text) (entry : Variable)
    (isVariable : entry.IsObject text) :
    ∃ value, Json.Spells text value ∧ Variable.ofJson? value = some entry := by
  have different : Variable.valueField ≠ Variable.nameField := by decide
  rcases isVariable with inOrder | reversed
  · refine ⟨_, Json.spells_of_isObject inOrder, ?_⟩
    simp [Json.ofEntries, Variable.fields, Variable.ofJson?, Variable.field?,
      Variable.fieldValues, different, different.symm, Json.text?]
  · refine ⟨_, Json.spells_of_isObject reversed, ?_⟩
    simp [Json.ofEntries, Variable.fields, Variable.ofJson?, Variable.field?,
      Variable.fieldValues, different, different.symm, Json.text?]

theorem isStandard_standard : standard.IsStandard where
  escape_plain _ := escaped_of_not_needsEscape
  escape_special _ := isCharacter_escaped
  writeMap_eq _ := rfl
  writeMapLines_eq _ := rfl
  writeList_eq _ := rfl
  readMap?_eq document entries spaced := by
    have reads (text : Text) (entries : List (Text × Text)) (isObject : Json.IsObject text entries) :
        ∃ value, Json.Spells text value ∧ VariableMap.ofJson? value = some (.ofList entries) :=
      ⟨_, Json.spells_of_isObject isObject, ofJson?_ofEntries entries⟩
    obtain ⟨value, spelled, read⟩ := Json.exists_isSpaced reads spaced
    change (Json.read? document).bind VariableMap.ofJson? = _
    rw [Json.read?_of_isSpaced spelled]
    exact read
  readList?_eq document listed spaced := by
    have reads (text : Text) (listed : List Variable)
        (isArray : Json.IsArray Variable.IsObject text listed) :
        ∃ value, Json.Spells text value ∧ Variable.listOfJson? value = some listed := by
      obtain ⟨values, spelled, held⟩ :=
        Json.exists_spells_of_isArray exists_spells_of_isVariable isArray
      exact ⟨_, spelled, mapM_eq_some_of_forall₂ held⟩
    obtain ⟨value, spelled, read⟩ := Json.exists_isSpaced reads spaced
    change (Json.read? document).bind Variable.listOfJson? = _
    rw [Json.read?_of_isSpaced spelled]
    exact read

/-- What a standard writer has written is what a standard reader finds: a map whether it is
written without blanks or printed with one member a line, and a list of variables in its order
and with its duplicates. -/
theorem written_is_read_back {codec : JsonCodec} (standard : codec.IsStandard) (world : World)
    (settings : Settings) :
    (∀ map : VariableMap,
      codec.readMap? (codec.writeMap map) = some map ∧
      ∃ text, Utf8.decode (Command.perform { world with writeJson := codec.writeMapLines }
          settings map (.print .json)).output = .ok text ∧
        codec.readMap? text = some map) ∧
    ∀ listed, codec.readList? (codec.writeList listed) = some listed := by
  refine ⟨fun map => ⟨?_, codec.writeMapLines map ++ ['\n'], Utf8.decode_encode _, ?_⟩,
    fun listed => ?_⟩
  · rw [standard.readMap?_eq _ _ (Json.isSpaced_self (standard.isObject_writeMap map)),
      map.ofList_entries]
  · have lineFeed : Json.AreBlanks ['\n'] := by simp [Json.AreBlanks]
    have spaced := Json.IsSpaced.around Json.areBlanks_nil lineFeed
      (standard.isObject_writeMapLines map)
    rw [List.nil_append] at spaced
    rw [standard.readMap?_eq _ _ spaced, map.ofList_entries]
  · exact standard.readList?_eq _ _ (Json.isSpaced_self (standard.isArray_writeList listed))

/-- Quotes, a backslash, control characters, a slash and a character outside of the basic
plane, and a list with a duplicate. -/
theorem written_is_read_back_escapes :
    let map : VariableMap :=
      .ofVariables [⟨"a\"b".toList, "\\u\x00\x1f\n/".toList⟩, ⟨"😀".toList, "é\x7f".toList⟩]
    let listed : List Variable :=
      [⟨"name".toList, "value".toList⟩, ⟨[], "\"".toList⟩, ⟨"name".toList, "value".toList⟩]
    let world := World.standard .empty [] [] Launch.nowhere
    standard.IsStandard ∧
      standard.writeMap map =
        "\x7b\"a\\\"b\":\"\\\\u\\u0000\\u001f\\n/\",\"😀\":\"é\x7f\"\x7d".toList ∧
      standard.readMap? (standard.writeMap map) = some map ∧
      (∃ text, Utf8.decode (Command.perform { world with writeJson := standard.writeMapLines }
          ⟨false, false⟩ map (.print .json)).output = .ok text ∧
        standard.readMap? text = some map) ∧
      standard.readList? (standard.writeList listed) = some listed := by
  intro map listed world
  obtain ⟨maps, lists⟩ := written_is_read_back isStandard_standard world ⟨false, false⟩
  obtain ⟨compact, printed⟩ := maps map
  exact ⟨isStandard_standard, by decide +kernel, compact, printed, lists listed⟩

end JsonCodec

end Dotenv
