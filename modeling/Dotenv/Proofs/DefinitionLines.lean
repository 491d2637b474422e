import Dotenv.Proofs.FirstBadLine
import Dotenv.Proofs.LineGrammar
import Dotenv.Source

/-!
# Definitions and the lines they come from

Every definition that is read comes from a line that was classified as one.  The
definitions of a text are those of its lines in order, unless some line is
malformed: then the first such line is reported and nothing else.
-/

namespace Dotenv

namespace Text

/-- No line of a text is malformed. -/
def IsWellFormed (allowBlank : Bool) (text : Text) : Prop :=
  ∀ line ∈ text.contentLines, Line.classify allowBlank line ≠ .malformed

/-- The number of the first malformed line of a text. -/
def MalformedAt (allowBlank : Bool) (text : Text) (number : Nat) : Prop :=
  ∃ before line after, text.contentLines = before ++ line :: after ∧
    (∀ earlier ∈ before, Line.classify allowBlank earlier ≠ .malformed) ∧
    Line.classify allowBlank line = .malformed ∧ number = before.length + 1

/-- The variables that the lines of a text define, in order. -/
def definitions (allowBlank : Bool) (text : Text) : List Variable :=
  text.contentLines.filterMap fun line => (Line.classify allowBlank line).defined?

theorem isWellFormed_or_malformedAt (allowBlank : Bool) (text : Text) :
    text.IsWellFormed allowBlank ∨ ∃ number, text.MalformedAt allowBlank number := by
  unfold IsWellFormed MalformedAt
  induction text.contentLines with
  | nil => exact .inl (by simp)
  | cons first rest ih =>
      by_cases malformed : Line.classify allowBlank first = .malformed
      · exact .inr ⟨1, [], first, rest, rfl, by simp, malformed, rfl⟩
      · rcases ih with good | ⟨_, before, line, after, split, good, bad, -⟩
        · exact .inl (List.forall_mem_cons.mpr ⟨malformed, good⟩)
        · refine .inr ⟨_, first :: before, line, after, ?_,
            List.forall_mem_cons.mpr ⟨malformed, good⟩, bad, rfl⟩
          rw [split, List.cons_append]

end Text

namespace Definitions

theorem exists_line_of_mem {allowBlank : Bool} {origin : Text} {stream : Stream}
    {listed : List Variable} (read : ofStream allowBlank origin stream = .ok listed)
    {entry : Variable} (member : entry ∈ listed) :
    ∃ text, Line.classify allowBlank text = .definition entry := by
  obtain ⟨texts, -, equal⟩ := ofStream_eq_ok_iff.mp read
  rw [equal] at member
  obtain ⟨text, -, defined⟩ := List.mem_filterMap.mp member
  exact ⟨text, Line.defined?_eq_some_iff.mp defined⟩

/-- Every variable that is read has a valid name and a valid value, and the value does not
begin with a blank. -/
theorem valid_of_mem {allowBlank : Bool} {origin : Text} {stream : Stream}
    {listed : List Variable} (read : ofStream allowBlank origin stream = .ok listed)
    {entry : Variable} (member : entry ∈ listed) :
    Name.isValid entry.name = true ∧ Value.isValid entry.value = true ∧
      ∀ first ∈ entry.value.head?, Text.isBlank first = false := by
  obtain ⟨text, classified⟩ := exists_line_of_mem read member
  exact Line.of_classify classified

theorem ofStream_encode_of_isWellFormed {allowBlank : Bool} {text : Text}
    (good : text.IsWellFormed allowBlank) (origin : Text) :
    ofStream allowBlank origin (.ofBytes (Utf8.encode text)) =
      .ok (text.definitions allowBlank) :=
  ofStream_eq_ok_iff.mpr ⟨text.contentLines, ⟨Stream.contents_encode text, good⟩, rfl⟩

/-- A text of one line has the definition on it. -/
theorem ofStream_encode_of_line {allowBlank : Bool} {line : Text} {entry : Variable}
    (single : '\n' ∉ line) (classified : Line.classify allowBlank line = .definition entry)
    (origin : Text) :
    ofStream allowBlank origin (.ofBytes (Utf8.encode line)) = .ok [entry] := by
  have nonempty : line ≠ [] := by
    intro empty
    rw [empty] at classified
    cases allowBlank <;> cases classified
  have content := Text.contentLines_of_no_lineFeed nonempty single
  have good : line.IsWellFormed allowBlank := by
    intro other member
    rw [content, List.mem_singleton] at member
    simp [member, classified]
  rw [ofStream_encode_of_isWellFormed good, Text.definitions, content]
  simp [classified, Line.defined?]

theorem ofStream_encode_of_malformedAt {allowBlank : Bool} {text : Text} {number : Nat}
    (malformed : text.MalformedAt allowBlank number) (origin : Text) :
    ofStream allowBlank origin (.ofBytes (Utf8.encode text)) =
      .error (.malformedLine origin number) := by
  obtain ⟨before, line, after, split, good, bad, position⟩ := malformed
  have contents := Stream.contents_encode text
  rw [split, List.map_append, List.map_cons] at contents
  have reported : number = (before.map Text.lineRead).length + 1 := by
    rw [position, List.length_map]
  exact ofStream_of_failsAt
    ⟨_, before, _, _, contents, ⟨rfl, good⟩, reported, .malformed bad⟩

/-- A text has definitions exactly when no line of it is malformed. -/
theorem ofStream_encode_eq_ok_iff {allowBlank : Bool} {origin text : Text}
    {listed : List Variable} :
    ofStream allowBlank origin (.ofBytes (Utf8.encode text)) = .ok listed ↔
      text.IsWellFormed allowBlank ∧ text.definitions allowBlank = listed := by
  constructor
  · intro read
    rcases text.isWellFormed_or_malformedAt allowBlank with good | ⟨number, malformed⟩
    · rw [ofStream_encode_of_isWellFormed good] at read
      exact ⟨good, Except.ok.inj read⟩
    · rw [ofStream_encode_of_malformedAt malformed] at read
      cases read
  · rintro ⟨good, equal⟩
    rw [ofStream_encode_of_isWellFormed good, equal]

theorem ofText_eq_ok_iff {allowBlank : Bool} {text : Text} {listed : List Variable} :
    ofText allowBlank text = .ok listed ↔
      text.IsWellFormed allowBlank ∧ text.definitions allowBlank = listed :=
  ofStream_encode_eq_ok_iff

end Definitions

namespace Source

theorem isValid_of_mem {tree : FileTree} {allowBlank : Bool} {source : Source}
    {listed : List Variable} (read : source.definitions tree allowBlank = .ok listed)
    {entry : Variable} (member : entry ∈ listed) :
    Name.isValid entry.name = true ∧ Value.isValid entry.value = true := by
  unfold definitions at read
  split at read
  · cases read
  · obtain ⟨validName, validValue, -⟩ := Definitions.valid_of_mem read member
    exact ⟨validName, validValue⟩

theorem isValid_value_of_definitions {tree : FileTree} {allowBlank : Bool} {source : Source}
    {listed : List Variable} (read : source.definitions tree allowBlank = .ok listed) :
    ∀ entry ∈ listed, Value.isValid entry.value = true :=
  fun _ member => (isValid_of_mem read member).2

theorem definitions_text_eq_ok_iff {tree : FileTree} {allowBlank : Bool}
    {origin content : Text} {listed : List Variable} :
    definitions tree allowBlank (.text origin content) = .ok listed ↔
      content.IsWellFormed allowBlank ∧ content.definitions allowBlank = listed :=
  Definitions.ofStream_encode_eq_ok_iff

end Source

end Dotenv
