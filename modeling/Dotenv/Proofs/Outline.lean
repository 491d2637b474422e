import Dotenv.Proofs.MergeOutcome

/-!
# Outlines

The outline of a text tells of each line what it is, and of a definition its name and the
names that its value refers to.  Merges of texts with the same outlines run alongside each
other: their maps bind the same names at every step, so that what is missing to the one is
missing to the other.  Nothing else in a text reaches a fault.
-/

namespace Dotenv

/-- What may be told of a line. -/
inductive Outline where
  | definition (name : Text) (references : List Text)
  | comment
  | blank
  | malformed
  deriving DecidableEq, Repr

/-- The name that is defined with the names that are referred to. -/
def Outline.definition? : Outline → Option (Text × List Text)
  | .definition name references => some (name, references)
  | .comment | .blank | .malformed => none

def Variable.outline (entry : Variable) : Text × List Text :=
  (entry.name, entry.value.referencedNames)

def Line.outline : Line → Outline
  | .definition entry => .definition entry.name entry.value.referencedNames
  | .comment => .comment
  | .blank => .blank
  | .malformed => .malformed

theorem Line.outline_eq_malformed_iff {line : Line} :
    line.outline = .malformed ↔ line = .malformed := by
  cases line with
  | definition entry => simp [outline]
  | comment => simp [outline]
  | blank => simp [outline]
  | malformed => simp [outline]

theorem Line.definition?_outline (line : Line) :
    line.outline.definition? = line.defined?.map Variable.outline := by
  cases line with
  | definition entry => rfl
  | comment => rfl
  | blank => rfl
  | malformed => rfl

namespace Text

/-- The outlines of the lines of a text. -/
def outline (allowBlank : Bool) (text : Text) : List Outline :=
  text.contentLines.map fun line => (Line.classify allowBlank line).outline

section Same

variable {allowBlank : Bool} {first second : Text}
  (same : first.outline allowBlank = second.outline allowBlank)

theorem isWellFormed_iff_outline {text : Text} :
    text.IsWellFormed allowBlank ↔ .malformed ∉ text.outline allowBlank := by
  simp [IsWellFormed, outline, Line.outline_eq_malformed_iff]

theorem malformedAt_iff_outline {text : Text} {number : Nat} :
    text.MalformedAt allowBlank number ↔
      ∃ before after, text.outline allowBlank = before ++ .malformed :: after ∧
        .malformed ∉ before ∧ number = before.length + 1 := by
  constructor
  · rintro ⟨before, line, after, split, good, bad, equal⟩
    refine ⟨before.map fun line => (Line.classify allowBlank line).outline,
      after.map fun line => (Line.classify allowBlank line).outline, ?_, ?_, ?_⟩
    · rw [outline, split, List.map_append, List.map_cons, bad]
      rfl
    · simpa [Line.outline_eq_malformed_iff] using good
    · rw [equal, List.length_map]
  · rintro ⟨before, after, split, good, equal⟩
    obtain ⟨earlier, others, linesSplit, rfl, othersEqual⟩ := List.map_eq_append_iff.mp split
    obtain ⟨line, later, rfl, lineEqual, -⟩ := List.map_eq_cons_iff.mp othersEqual
    refine ⟨earlier, line, later, linesSplit, ?_, Line.outline_eq_malformed_iff.mp lineEqual, ?_⟩
    · simpa [Line.outline_eq_malformed_iff] using good
    · rw [equal, List.length_map]

theorem map_outline_definitions {text : Text} :
    (text.definitions allowBlank).map Variable.outline =
      (text.outline allowBlank).filterMap Outline.definition? := by
  rw [definitions, outline, List.map_filterMap, List.filterMap_map]
  exact List.filterMap_congr fun line _ => (Line.definition?_outline _).symm

include same

theorem isWellFormed_congr : first.IsWellFormed allowBlank ↔ second.IsWellFormed allowBlank := by
  rw [isWellFormed_iff_outline, isWellFormed_iff_outline, same]

theorem malformedAt_congr (number : Nat) :
    first.MalformedAt allowBlank number ↔ second.MalformedAt allowBlank number := by
  rw [malformedAt_iff_outline, malformedAt_iff_outline, same]

theorem map_outline_definitions_congr :
    (first.definitions allowBlank).map Variable.outline =
      (second.definitions allowBlank).map Variable.outline := by
  rw [map_outline_definitions, map_outline_definitions, same]

end Same

end Text

namespace VariableMap

/-- Maps that bind the same names, to whatever values. -/
def BindsAlike (first second : VariableMap) : Prop :=
  ∀ name, first.contains name = second.contains name

theorem BindsAlike.insert {first second : VariableMap} (alike : first.BindsAlike second)
    (name value other : Text) :
    BindsAlike (first.insert name value) (second.insert name other) := by
  intro wanted
  have same := alike wanted
  simp only [SortedMap.contains, SortedMap.get?_insert] at same ⊢
  split
  · rfl
  · exact same

theorem BindsAlike.expand_missing {first second : VariableMap} (alike : first.BindsAlike second)
    {value other : Text} (same : value.referencedNames = other.referencedNames) :
    (value.expand first).missing = (other.expand second).missing := by
  rw [Text.expand_missing, Text.expand_missing, same]
  exact List.filter_congr fun name _ => by rw [alike name]

end VariableMap

/-- Merges that differ in nothing but values: they have the same fault, if any, and bind the
same names. -/
structure Merge.Alike (first second : Merge) : Prop where
  fault : first.fault = second.fault
  names : first.map.BindsAlike second.map

namespace VariableMap

variable {settings : Settings} {first second : VariableMap}

theorem defineAll_alike (origin : Text) {listed others : List Variable}
    (alike : first.BindsAlike second)
    (same : listed.map Variable.outline = others.map Variable.outline)
    (clean : ∀ entry ∈ listed, entry.value.IsClean settings.strictReferences)
    (otherClean : ∀ entry ∈ others, entry.value.IsClean settings.strictReferences) :
    Merge.Alike (first.defineAll settings origin listed)
      (second.defineAll settings origin others) := by
  induction listed generalizing first second others with
  | nil =>
      cases others with
      | nil => exact ⟨rfl, alike⟩
      | cons other rest => cases same
  | cons entry rest ih =>
      cases others with
      | nil => cases same
      | cons other others =>
          obtain ⟨entrySame, restSame⟩ := List.cons.inj same
          obtain ⟨nameSame, referencesSame⟩ := Prod.mk.inj entrySame
          obtain ⟨own, clean⟩ := List.forall_mem_cons.mp clean
          obtain ⟨otherOwn, otherClean⟩ := List.forall_mem_cons.mp otherClean
          have missingSame := alike.expand_missing referencesSame
          rw [defineAll_cons_of_isClean own, defineAll_cons_of_isClean otherOwn, ← missingSame,
            ← nameSame]
          -- with the same names missing both merges go on or both end here
          split
          · exact ih (alike.insert _ _ _) restSame clean otherClean
          · exact ⟨rfl, alike⟩

end VariableMap

namespace NamedText

/-- What may be told of a text with its origin. -/
def outline (allowBlank : Bool) (named : NamedText) : Text × List Outline :=
  (named.origin, named.content.outline allowBlank)

variable {settings : Settings} (tree : FileTree) {map other : VariableMap}

theorem addSource_alike (alike : map.BindsAlike other) {first second : NamedText}
    (same : first.outline settings.allowBlankLines = second.outline settings.allowBlankLines) :
    Merge.Alike (map.addSource settings tree first.source)
      (other.addSource settings tree second.source) := by
  obtain ⟨originSame, contentSame⟩ := Prod.mk.inj same
  have sourceSame : first.source.origin = second.source.origin := originSame
  rcases first.content.isWellFormed_or_malformedAt settings.allowBlankLines with
    good | ⟨number, bad⟩
  · have otherGood := (Text.isWellFormed_congr contentSame).mp good
    simp only [VariableMap.addSource, definitions_source tree good,
      definitions_source tree otherGood, sourceSame]
    apply VariableMap.defineAll_alike _ alike (Text.map_outline_definitions_congr contentSame)
    · exact fun _ member => isClean_of_mem_definitions member _
    · exact fun _ member => isClean_of_mem_definitions member _
  · have otherBad := (Text.malformedAt_congr contentSame number).mp bad
    have read : first.source.definitions tree settings.allowBlankLines = .error _ :=
      Definitions.ofStream_encode_of_malformedAt bad first.origin
    have otherRead : second.source.definitions tree settings.allowBlankLines = .error _ :=
      Definitions.ofStream_encode_of_malformedAt otherBad second.origin
    simp only [VariableMap.addSource, read, otherRead]
    exact ⟨congrArg (fun origin => some (Fault.malformedLine origin number)) originSame, alike⟩

theorem addSources_alike (alike : map.BindsAlike other) {first second : List NamedText}
    (same : first.map (outline settings.allowBlankLines) =
      second.map (outline settings.allowBlankLines)) :
    Merge.Alike (map.addSources settings tree (first.map source))
      (other.addSources settings tree (second.map source)) := by
  induction first generalizing map other second with
  | nil =>
      cases second with
      | nil => exact ⟨rfl, alike⟩
      | cons named rest => cases same
  | cons named rest ih =>
      cases second with
      | nil => cases same
      | cons other others =>
          obtain ⟨namedSame, restSame⟩ := List.cons.inj same
          have step := addSource_alike tree alike namedSame
          simp only [List.map_cons, VariableMap.addSources, step.fault]
          split
          · exact ih step.names restSame
          · exact step

/-- Texts with the same origins and outlines are merged alike: either both merges succeed
and bind the same names, or both have the same fault with the same message. -/
theorem merges_tell_outlines_only (settings : Settings) (tree : FileTree)
    {first second : List NamedText}
    (same : first.map (outline settings.allowBlankLines) =
      second.map (outline settings.allowBlankLines)) :
    (∃ map other : VariableMap,
      VariableMap.ofSources settings tree (first.map source) = .ok map ∧
      VariableMap.ofSources settings tree (second.map source) = .ok other ∧
      map.keys = other.keys) ∨
    ∃ fault other : Fault,
      VariableMap.ofSources settings tree (first.map source) = .error fault ∧
      VariableMap.ofSources settings tree (second.map source) = .error other ∧
      fault = other ∧ fault.message = other.message := by
  have nothing : VariableMap.BindsAlike .empty .empty := fun _ => rfl
  obtain ⟨faultSame, names⟩ := addSources_alike tree nothing same
  simp only [VariableMap.ofSources, ← faultSame]
  cases (VariableMap.addSources settings tree .empty (first.map source)).fault with
  | none => exact .inl ⟨_, _, rfl, rfl, SortedMap.keys_eq_of_contains_eq names⟩
  | some fault => exact .inr ⟨fault, fault, rfl, rfl, rfl, rfl⟩

/-- Two texts with other values, blanks, quotes and comments in them. -/
theorem merges_tell_outlines_only_redacted :
    let first : List NamedText :=
      [⟨"base".toList, "# keep\nTOKEN=\"a b\"\n".toList⟩,
        ⟨"site".toList, "URL=x$TOKEN\nKEY=$HOST/${PORT}/$TOKEN\n?\n".toList⟩]
    let second : List NamedText :=
      [⟨"base".toList, "#\r\n  TOKEN = \\$\r\n".toList⟩,
        ⟨"site".toList, "export URL=\"${TOKEN}y\"\nKEY=$HOST$PORT\\${TOKEN}\nA=\"\n".toList⟩]
    first.map (outline false) = second.map (outline false) ∧
      ((∃ map other : VariableMap,
        VariableMap.ofSources ⟨false, true⟩ .empty (first.map source) = .ok map ∧
        VariableMap.ofSources ⟨false, true⟩ .empty (second.map source) = .ok other ∧
        map.keys = other.keys) ∨
      ∃ fault other : Fault,
        VariableMap.ofSources ⟨false, true⟩ .empty (first.map source) = .error fault ∧
        VariableMap.ofSources ⟨false, true⟩ .empty (second.map source) = .error other ∧
        fault = other ∧ fault.message = other.message) := by
  intro first second
  have same : first.map (outline false) = second.map (outline false) := by decide +kernel
  exact ⟨same, merges_tell_outlines_only ⟨false, true⟩ .empty same⟩

end NamedText

end Dotenv
