import Dotenv.Proofs.DefinitionGrammar
import Dotenv.Proofs.LayoutRoundTrip

/-!
# Values written between double quotes

Double quotes keep what a bare line loses: blanks at the start of a value and a carriage
return at its end.  They do not make a value safe, since nothing in it is escaped; a value
comes back exactly when it could stand inside of a quoted value anyway.
-/

namespace Dotenv

namespace Layout

/-- The same lines with every value between double quotes. -/
def quoting (layout : Layout) : Layout := { layout with valueSpelling := .doubleQuoted }

/-- The variable with its value between double quotes. -/
def quotedValue (entry : Variable) : Variable := ⟨entry.name, entry.value.quoted⟩

/-- A variable that a line can hold between double quotes. -/
def HoldsQuoted (entry : Variable) : Prop :=
  Name.isValid entry.name = true ∧ Value.Inner entry.value

instance (entry : Variable) : Decidable (HoldsQuoted entry) :=
  inferInstanceAs (Decidable (_ ∧ _))

/-- The written variables are read as variables of the same names and, without quotes, of
the same values, in the same order. -/
def Returns (layout : Layout) (allowBlank : Bool) (listed : List Variable) : Prop :=
  ∃ read, Definitions.ofText allowBlank (layout.render listed) = .ok read ∧
    read.map Variable.name = listed.map Variable.name ∧
    read.map Variable.unquoted = listed.map Variable.value

/-- A quoted value starts and ends with a quote, so nothing is taken off it. -/
theorem readBack_quotedValue (entry : Variable) :
    readBack (quotedValue entry) = quotedValue entry := by
  refine readBack_eq_self_iff.mpr ⟨?_, ?_⟩
  · intro first member
    have quote : '"' = first := Option.some.inj member
    rw [← quote]
    rfl
  · have closing : entry.value.quoted.getLast? = some '"' := List.getLast?_concat
    rw [quotedValue, closing]
    decide

theorem isValid_readBack_quotedValue_iff {entry : Variable} :
    Value.isValid (readBack (quotedValue entry)).value = true ↔ Value.Inner entry.value := by
  rw [readBack_quotedValue]
  exact Value.isValid_quoted_iff

theorem AreSingleLine.map_quotedValue {listed : List Variable} (lines : AreSingleLine listed) :
    AreSingleLine (listed.map quotedValue) := by
  rw [AreSingleLine, List.forall_mem_map]
  intro entry member
  obtain ⟨valid, single⟩ := lines entry member
  exact ⟨valid, by simpa [quotedValue, Text.quoted] using single⟩

/-- A line feed in a value could begin a line that is a definition of its own.  It cannot
come back inside of a value though, so where names and values come back each variable was
written as one line. -/
theorem Returns.areSingleLine {layout : Layout} {allowBlank : Bool} {listed : List Variable}
    (returns : layout.Returns allowBlank listed) : AreSingleLine listed := by
  obtain ⟨read, parsed, names, values⟩ := returns
  have validNames : ∀ name ∈ listed.map Variable.name, Name.isValid name = true := by
    rw [← names, List.forall_mem_map]
    intro found inRead
    exact (Definitions.valid_of_mem parsed inRead).1
  have singleValues : ∀ value ∈ listed.map Variable.value, '\n' ∉ value := by
    rw [← values, List.forall_mem_map]
    intro found inRead feeds
    have validValue := (Definitions.valid_of_mem parsed inRead).2.1
    exact Value.lineFeed_not_mem validValue ((Text.unquoted_sublist found.value).subset feeds)
  intro entry member
  exact ⟨validNames _ (List.mem_map_of_mem member), singleValues _ (List.mem_map_of_mem member)⟩

theorem returns_of_ofText {layout : Layout} {allowBlank : Bool} {listed : List Variable}
    (parsed : Definitions.ofText allowBlank (layout.render listed) =
      .ok (listed.map quotedValue)) :
    layout.Returns allowBlank listed := by
  refine ⟨listed.map quotedValue, parsed, ?_, ?_⟩
  · rw [List.map_map]
    rfl
  · rw [List.map_map]
    exact List.map_congr_left fun entry _ => Text.unquoted_quoted entry.value

section Quoting

variable {layout : Layout} (plain : layout.IsPlain)

include plain

theorem render_quoting (listed : List Variable) :
    layout.quoting.render listed = layout.render (listed.map quotedValue) := by
  rw [render, render, List.flatMap_map]
  apply congrArg fun written => listed.flatMap written
  funext entry
  simp [line, quoting, quotedValue, lead, Spelling.apply, plain.valueSpelling]

/-- Variables that fit between double quotes are read as they were written. -/
theorem ofText_render_quoting (allowBlank : Bool) {listed : List Variable}
    (holds : ∀ entry ∈ listed, HoldsQuoted entry) :
    Definitions.ofText allowBlank (layout.quoting.render listed) =
      .ok (listed.map quotedValue) := by
  have lines : AreSingleLine listed := by
    intro entry member
    obtain ⟨valid, inside⟩ := holds entry member
    have bare : Value.isValid entry.value = true := Value.isValid_iff.mpr (.bare inside)
    exact ⟨valid, Value.lineFeed_not_mem bare⟩
  rw [render_quoting plain, ofText_render_eq_ok_iff_readBack plain allowBlank
    lines.map_quotedValue, List.forall_mem_map]
  intro entry member
  exact ⟨Value.isValid_quoted_iff.mpr (holds entry member).2, readBack_quotedValue entry⟩

theorem holdsQuoted_of_returns {allowBlank : Bool} {listed : List Variable}
    (returns : layout.quoting.Returns allowBlank listed) :
    ∀ entry ∈ listed, HoldsQuoted entry := by
  have lines := returns.areSingleLine
  obtain ⟨read, parsed, -, -⟩ := returns
  rw [render_quoting plain, Definitions.ofText_eq_ok_iff,
    isWellFormed_render_iff plain allowBlank lines.map_quotedValue, List.forall_mem_map] at parsed
  intro entry member
  exact ⟨(lines entry member).1, isValid_readBack_quotedValue_iff.mp (parsed.1 entry member)⟩

theorem returns_quoting_iff (allowBlank : Bool) (listed : List Variable) :
    layout.quoting.Returns allowBlank listed ↔ ∀ entry ∈ listed, HoldsQuoted entry :=
  ⟨holdsQuoted_of_returns plain,
    fun holds => returns_of_ofText (ofText_render_quoting plain allowBlank holds)⟩

theorem ofText_render_quoting_eq_ok_iff (allowBlank : Bool) (listed : List Variable) :
    Definitions.ofText allowBlank (layout.quoting.render listed) =
        .ok (listed.map quotedValue) ↔
      ∀ entry ∈ listed, HoldsQuoted entry :=
  ⟨fun parsed => holdsQuoted_of_returns plain (returns_of_ofText parsed),
    ofText_render_quoting plain allowBlank⟩

end Quoting

/-- Variables that are written with quoted values, plainly or for a shell, come back exactly
when each has a valid name and a value that can stand inside of quotes.  Exactly then each
value is read as it is between the quotes, with the blanks that it begins with and a carriage
return that is escaped at its end. -/
theorem returns_quoting_dotenv_shellExport (allowBlank : Bool) (listed : List Variable) :
    ((dotenv.quoting.Returns allowBlank listed ↔ ∀ entry ∈ listed, HoldsQuoted entry) ∧
      (shellExport.quoting.Returns allowBlank listed ↔
        ∀ entry ∈ listed, HoldsQuoted entry)) ∧
    (Definitions.ofText allowBlank (dotenv.quoting.render listed) =
        .ok (listed.map quotedValue) ↔ ∀ entry ∈ listed, HoldsQuoted entry) ∧
    (Definitions.ofText allowBlank (shellExport.quoting.render listed) =
        .ok (listed.map quotedValue) ↔ ∀ entry ∈ listed, HoldsQuoted entry) :=
  ⟨⟨returns_quoting_iff isPlain_dotenv allowBlank listed,
      returns_quoting_iff isPlain_shellExport allowBlank listed⟩,
    ofText_render_quoting_eq_ok_iff isPlain_dotenv allowBlank listed,
    ofText_render_quoting_eq_ok_iff isPlain_shellExport allowBlank listed⟩

/-- Without the quotes the blank and the carriage return of this value are lost. -/
example :
    let listed : List Variable := [⟨"A".toList, " $B \\\r".toList⟩]
    Definitions.ofText false (dotenv.render listed) = .ok [⟨"A".toList, "$B \\".toList⟩] ∧
      Definitions.ofText false (dotenv.quoting.render listed) =
        .ok [⟨"A".toList, "\" $B \\\r\"".toList⟩] := by
  decide +kernel

/-- The closing quote would be escaped by the last backslash. -/
example : ¬ HoldsQuoted ⟨"A".toList, "C:\\".toList⟩ := by decide

end Layout

end Dotenv
