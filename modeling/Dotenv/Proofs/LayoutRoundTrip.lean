import Dotenv.Layout
import Dotenv.Proofs.DefinitionLines

/-!
# Reading back written definitions

A plain layout writes variables as definition lines that are read back as these
variables, as long as no name and no value is one that no line can hold.
-/

namespace Dotenv

namespace Layout

/-- A layout whose lines are meant to be read back: the word `export` with blanks
after it or nothing, an equals sign that may have blanks around it, and names and
values as they are. -/
structure IsPlain (layout : Layout) : Prop where
  keyword : layout.keyword = [] ∨ layout.keyword = Line.exportWord
  keywordSeparator_ne_nil : layout.keywordSeparator ≠ []
  keywordSeparator_blank :
    ∀ character ∈ layout.keywordSeparator, Text.isBlank character = true
  valueSeparator : ∃ before after,
    (∀ character ∈ before, Text.isBlank character = true) ∧
    (∀ character ∈ after, Text.isBlank character = true) ∧
    layout.valueSeparator = before ++ '=' :: after
  nameSpelling : layout.nameSpelling = .asIs
  valueSpelling : layout.valueSpelling = .asIs

theorem isPlain_shellExport : shellExport.IsPlain where
  keyword := .inr rfl
  keywordSeparator_ne_nil := by decide
  keywordSeparator_blank := by
    intro character member
    have space : character = ' ' := List.mem_singleton.mp member
    rw [space]
    rfl
  valueSeparator := ⟨[], [], by simp, by simp, rfl⟩
  nameSpelling := rfl
  valueSpelling := rfl

theorem isPlain_dotenv : dotenv.IsPlain where
  keyword := .inl rfl
  keywordSeparator_ne_nil := by decide
  keywordSeparator_blank := isPlain_shellExport.keywordSeparator_blank
  valueSeparator := ⟨[], [], by simp, by simp, rfl⟩
  nameSpelling := rfl
  valueSpelling := rfl

section Plain

variable {layout : Layout}

theorem IsPlain.isLead (plain : layout.IsPlain) : Line.IsLead layout.lead := by
  rcases plain.keyword with empty | word
  · exact .inl (by simp [lead, empty])
  · refine .inr ⟨_, plain.keywordSeparator_ne_nil, plain.keywordSeparator_blank, ?_⟩
    rw [lead, word]
    rfl

theorem lineFeed_not_mem_of_blank {blanks : Text}
    (blank : ∀ character ∈ blanks, Text.isBlank character = true) : '\n' ∉ blanks := by
  intro member
  cases blank _ member

theorem IsPlain.lineFeed_not_mem_lead (plain : layout.IsPlain) : '\n' ∉ layout.lead := by
  rcases plain.isLead with empty | ⟨gap, -, gapBlank, equal⟩
  · simp [empty]
  · rw [equal, List.mem_append, not_or]
    exact ⟨by decide, lineFeed_not_mem_of_blank gapBlank⟩

theorem IsPlain.lineFeed_not_mem_valueSeparator (plain : layout.IsPlain) :
    '\n' ∉ layout.valueSeparator := by
  obtain ⟨before, after, beforeBlank, afterBlank, equal⟩ := plain.valueSeparator
  simp [equal, lineFeed_not_mem_of_blank beforeBlank, lineFeed_not_mem_of_blank afterBlank]

theorem IsPlain.getLast?_valueSeparator (plain : layout.IsPlain) (name : Text) :
    (layout.lead ++ (name ++ layout.valueSeparator)).getLast? ≠ some '\r' := by
  obtain ⟨before, after, -, afterBlank, equal⟩ := plain.valueSeparator
  intro ends
  rcases after.eq_nil_or_concat' with empty | ⟨body, last, afterEqual⟩
  · simp [equal, empty] at ends
  · have blank := afterBlank last (by simp [afterEqual])
    have returns : last = '\r' := by
      simpa [equal, afterEqual, List.getLast?_cons] using ends
    rw [returns] at blank
    cases blank

/-- What stands on the line of a variable once its end is taken off. -/
def content (layout : Layout) (entry : Variable) : Text :=
  layout.lead ++ (entry.name ++ (layout.valueSeparator ++ entry.value.withoutReturn))

theorem IsPlain.line_eq (plain : layout.IsPlain) (entry : Variable) :
    layout.line entry =
      layout.lead ++ (entry.name ++ layout.valueSeparator) ++ entry.value ++ ['\n'] := by
  simp [line, Spelling.apply, plain.nameSpelling, plain.valueSpelling]

theorem IsPlain.lineFeed_not_mem_body (plain : layout.IsPlain) {entry : Variable}
    (single : '\n' ∉ entry.name ∧ '\n' ∉ entry.value) :
    '\n' ∉ layout.lead ++ (entry.name ++ layout.valueSeparator) ++ entry.value := by
  simp [plain.lineFeed_not_mem_lead, plain.lineFeed_not_mem_valueSeparator, single.1, single.2]

/-- The lines of variables without line feeds are one for each variable. -/
theorem lines_render (plain : layout.IsPlain) {listed : List Variable}
    (single : ∀ entry ∈ listed, '\n' ∉ entry.name ∧ '\n' ∉ entry.value) :
    (layout.render listed).lines = listed.map layout.line := by
  induction listed with
  | nil => rfl
  | cons entry rest ih =>
      obtain ⟨own, others⟩ := List.forall_mem_cons.mp single
      rw [render_cons, plain.line_eq, List.append_assoc, List.singleton_append,
        Text.lines_append (plain.lineFeed_not_mem_body own), ih others, List.map_cons,
        plain.line_eq]

theorem contentLines_render (plain : layout.IsPlain) {listed : List Variable}
    (single : ∀ entry ∈ listed, '\n' ∉ entry.name ∧ '\n' ∉ entry.value) :
    (layout.render listed).contentLines = listed.map layout.content := by
  rw [Text.contentLines, lines_render plain single, List.map_map]
  apply List.map_congr_left
  intro entry _
  rw [Function.comp_apply, plain.line_eq, Text.withoutTerminator_append,
    Text.withoutReturn_append (plain.getLast?_valueSeparator entry.name)]
  simp [content]

/-- The variable that the line of a variable defines, if it defines one. -/
def readBack (entry : Variable) : Variable :=
  ⟨entry.name, entry.value.withoutReturn.trimBlanks⟩

@[simp]
theorem name_readBack (entry : Variable) : (readBack entry).name = entry.name := rfl

theorem classify_content (plain : layout.IsPlain) (allowBlank : Bool) {entry : Variable}
    (valid : Name.isValid entry.name = true) (single : '\n' ∉ entry.value) :
    Line.classify allowBlank (layout.content entry) =
      if Value.isValid (readBack entry).value then
        .definition (readBack entry)
      else
        .malformed := by
  obtain ⟨before, after, beforeBlank, afterBlank, equal⟩ := plain.valueSeparator
  have singleBody : '\n' ∉ entry.value.withoutReturn := by
    intro member
    exact single (Text.withoutReturn_sublist.subset member)
  have noIndent : ∀ character ∈ ([] : Text), Text.isBlank character = true := by simp
  have classified := Line.classify_append allowBlank noIndent plain.isLead valid
    beforeBlank afterBlank singleBody
  rw [content, equal, List.append_assoc, List.cons_append]
  exact classified

/-- Each variable has a valid name and a value without line feeds. -/
def AreSingleLine (listed : List Variable) : Prop :=
  ∀ entry ∈ listed, Name.isValid entry.name = true ∧ '\n' ∉ entry.value

theorem AreSingleLine.lineFeed_not_mem {listed : List Variable}
    (lines : AreSingleLine listed) :
    ∀ entry ∈ listed, '\n' ∉ entry.name ∧ '\n' ∉ entry.value := by
  intro entry member
  obtain ⟨valid, single⟩ := lines entry member
  exact ⟨Name.not_mem_of_isValid valid rfl, single⟩

theorem isWellFormed_render_iff (plain : layout.IsPlain) (allowBlank : Bool)
    {listed : List Variable} (lines : AreSingleLine listed) :
    (layout.render listed).IsWellFormed allowBlank ↔
      ∀ entry ∈ listed, Value.isValid (readBack entry).value = true := by
  rw [Text.IsWellFormed, contentLines_render plain lines.lineFeed_not_mem, List.forall_mem_map]
  apply forall₂_congr
  intro entry member
  obtain ⟨valid, single⟩ := lines entry member
  rw [classify_content plain allowBlank valid single]
  split
  · rename_i defines
    simp [defines]
  · rename_i refused
    simp [refused]

theorem definitions_render (plain : layout.IsPlain) (allowBlank : Bool)
    {listed : List Variable} (lines : AreSingleLine listed)
    (defines : ∀ entry ∈ listed, Value.isValid (readBack entry).value = true) :
    (layout.render listed).definitions allowBlank = listed.map readBack := by
  rw [Text.definitions, contentLines_render plain lines.lineFeed_not_mem, List.filterMap_map,
    ← List.filterMap_eq_map]
  apply List.filterMap_congr
  intro entry member
  obtain ⟨valid, single⟩ := lines entry member
  simp only [Function.comp_apply, classify_content plain allowBlank valid single,
    if_pos (defines entry member), Line.defined?]

/-- Such lines are read back as they are exactly when each of them is by itself. -/
theorem ofText_render_eq_ok_iff_readBack (plain : layout.IsPlain) (allowBlank : Bool)
    {listed : List Variable} (lines : AreSingleLine listed) :
    Definitions.ofText allowBlank (layout.render listed) = .ok listed ↔
      ∀ entry ∈ listed, Value.isValid entry.value = true ∧ readBack entry = entry := by
  rw [Definitions.ofText_eq_ok_iff]
  constructor
  · rintro ⟨good, read⟩
    have defines := (isWellFormed_render_iff plain allowBlank lines).mp good
    rw [definitions_render plain allowBlank lines defines] at read
    have same : listed.map readBack = listed.map id := by rwa [List.map_id]
    intro entry member
    have equal : readBack entry = entry := List.map_inj_left.mp same entry member
    exact ⟨equal ▸ defines entry member, equal⟩
  · intro holds
    have defines : ∀ entry ∈ listed, Value.isValid (readBack entry).value = true := by
      intro entry member
      obtain ⟨validValue, equal⟩ := holds entry member
      rw [equal]
      exact validValue
    have good := (isWellFormed_render_iff plain allowBlank lines).mpr defines
    have same : listed.map readBack = listed.map id :=
      List.map_inj_left.mpr fun entry member => (holds entry member).2
    rw [definitions_render plain allowBlank lines defines, same, List.map_id]
    exact ⟨good, rfl⟩

end Plain

theorem readBack_eq_self_iff {entry : Variable} :
    readBack entry = entry ↔
      (∀ first ∈ entry.value.head?, Text.isBlank first = false) ∧
        entry.value.getLast? ≠ some '\r' := by
  constructor
  · intro equal
    have value : entry.value.withoutReturn.trimBlanks = entry.value :=
      congrArg Variable.value equal
    have trimmed : entry.value.withoutReturn.trimBlanks.Sublist entry.value.withoutReturn :=
      List.dropWhile_sublist _
    rw [value] at trimmed
    have same : entry.value.withoutReturn = entry.value :=
      (Text.withoutReturn_sublist.antisymm trimmed)
    refine ⟨fun first member => ?_, Text.withoutReturn_eq_self_iff.mp same⟩
    rw [← value] at member
    exact Text.not_blank_of_mem_head?_trimBlanks member
  · rintro ⟨visible, noReturn⟩
    rw [readBack, Text.withoutReturn_eq_self_iff.mpr noReturn,
      Text.trimBlanks_eq_self visible]

/-- A variable that a line can hold. -/
def Holds (entry : Variable) : Prop :=
  Name.isValid entry.name = true ∧ Value.isValid entry.value = true ∧
    (∀ first ∈ entry.value.head?, Text.isBlank first = false) ∧
    entry.value.getLast? ≠ some '\r'

instance (entry : Variable) : Decidable (Holds entry) :=
  have : Decidable (∀ first ∈ entry.value.head?, Text.isBlank first = false) :=
    Option.decidableForallMem entry.value.head?
  inferInstanceAs (Decidable (_ ∧ _ ∧ _ ∧ _))

/-- Variables that are written by a plain layout are read back as they are exactly
when a line can hold each of them. -/
theorem ofText_render_eq_ok_iff {layout : Layout} (plain : layout.IsPlain)
    (allowBlank : Bool) (listed : List Variable) :
    Definitions.ofText allowBlank (layout.render listed) = .ok listed ↔
      ∀ entry ∈ listed, Holds entry := by
  constructor
  · intro read
    -- what is read comes from lines, so names and values have no line feeds in them
    have fromLine (entry : Variable) (member : entry ∈ listed) :
        Name.isValid entry.name = true ∧ Value.isValid entry.value = true := by
      obtain ⟨line, classified⟩ := Definitions.exists_line_of_mem read member
      obtain ⟨valid, validValue, -⟩ := Line.of_classify classified
      exact ⟨valid, validValue⟩
    have lines : AreSingleLine listed := fun entry member =>
      ⟨(fromLine entry member).1, Value.lineFeed_not_mem (fromLine entry member).2⟩
    have back := (ofText_render_eq_ok_iff_readBack plain allowBlank lines).mp read
    intro entry member
    exact ⟨(fromLine entry member).1, (fromLine entry member).2,
      readBack_eq_self_iff.mp (back entry member).2⟩
  · intro holds
    have lines : AreSingleLine listed := by
      intro entry member
      obtain ⟨valid, validValue, -⟩ := holds entry member
      exact ⟨valid, Value.lineFeed_not_mem validValue⟩
    refine (ofText_render_eq_ok_iff_readBack plain allowBlank lines).mpr ?_
    intro entry member
    obtain ⟨-, validValue, unchanged⟩ := holds entry member
    exact ⟨validValue, readBack_eq_self_iff.mpr unchanged⟩

/-- The word `export` can be a name, and a carriage return may stand inside a value. -/
theorem ofText_shellExport_export :
    shellExport.IsPlain ∧
      Definitions.ofText false (shellExport.render
          [⟨"export".toList, "\"a b\"".toList⟩, ⟨"A".toList, "$export\\\r-\\".toList⟩]) =
        .ok [⟨"export".toList, "\"a b\"".toList⟩, ⟨"A".toList, "$export\\\r-\\".toList⟩] :=
  ⟨isPlain_shellExport, (ofText_render_eq_ok_iff isPlain_shellExport false _).mpr (by decide)⟩

end Layout

end Dotenv
