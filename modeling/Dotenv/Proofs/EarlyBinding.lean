import Dotenv.Proofs.DefinedNames
import Dotenv.Proofs.MergedMap

/-!
# The definition that counts

A merged map binds each name by its last definition.  What this definition refers to was
looked up when it was made: the definitions before it decide the value, and none after it
changes what it came to.
-/

namespace Dotenv

/-- A definition among variables, with those before it and those after it, none of which
defines its name again. -/
structure IsLastDefinition (listed before : List Variable) (entry : Variable)
    (after : List Variable) : Prop where
  split : listed = before ++ entry :: after
  last : entry.name ∉ after.map Variable.name

theorem IsLastDefinition.cons {listed before after : List Variable} {entry : Variable}
    (last : IsLastDefinition listed before entry after) (first : Variable) :
    IsLastDefinition (first :: listed) (first :: before) entry after where
  split := by rw [last.split, List.cons_append]
  last := last.last

/-- A name that is defined has a last definition. -/
theorem exists_isLastDefinition {listed : List Variable} {name : Text}
    (defined : name ∈ listed.map Variable.name) :
    ∃ before entry after, IsLastDefinition listed before entry after ∧ entry.name = name := by
  induction listed with
  | nil => cases defined
  | cons first rest ih =>
      by_cases later : name ∈ rest.map Variable.name
      · obtain ⟨before, entry, after, last, named⟩ := ih later
        exact ⟨first :: before, entry, after, last.cons first, named⟩
      · rw [List.map_cons, List.mem_cons] at defined
        have named : first.name = name := (defined.resolve_right later).symm
        rw [← named] at later
        exact ⟨[], first, rest, ⟨rfl, later⟩, named⟩

namespace VariableMap

variable {settings : Settings} {origin : Text} {map earlier : VariableMap}
  {before : List Variable} {entry : Variable}

/-- What a definition came to stays, whatever is defined after it under other names. -/
theorem get?_defineAll_append_cons
    (made : map.defineAll settings origin before = ⟨earlier, none⟩)
    (valid : Value.isValid entry.value = true)
    (resolved : (entry.value.expand earlier).missing = []) {others : List Variable}
    (last : entry.name ∉ others.map Variable.name) :
    (map.defineAll settings origin (before ++ entry :: others)).map.get? entry.name =
      some (entry.value.expand earlier).text := by
  rw [defineAll_append_of_eq_ok made,
    defineAll_cons_of_isClean (Value.isClean_of_isValid valid _), if_pos resolved,
    get?_defineAll_of_not_mem last, SortedMap.get?_insert, if_pos rfl]

/-- Definitions that are made one after the other are each expanded, with nothing missing,
against the map that those before it make. -/
theorem exists_earlier_of_defineAll {after : List Variable} {made : VariableMap}
    (valid : ∀ definition ∈ before ++ entry :: after, Value.isValid definition.value = true)
    (defined : map.defineAll settings origin (before ++ entry :: after) = ⟨made, none⟩) :
    ∃ earlier, map.defineAll settings origin before = ⟨earlier, none⟩ ∧
      (entry.value.expand earlier).missing = [] := by
  obtain ⟨beforeValid, othersValid⟩ := List.forall_mem_append.mp valid
  obtain ⟨own, _⟩ := List.forall_mem_cons.mp othersValid
  obtain ⟨earlier, first, later⟩ := (defineAll_append_eq_ok_iff beforeValid).mp defined
  exact ⟨earlier, first, ((defineAll_cons_eq_ok_iff own).mp later).1⟩

/-- The map of sources binds the names of their definitions.  The last definition of a name
gives it the expansion of its value against the map that the definitions before it make, and
whatever else is defined after it, under other names, leaves that as it is. -/
theorem ofSources_binds_last_definition {tree : FileTree} {sources : List Source}
    (merged : ofSources settings tree sources = .ok map) :
    ∃ listed, Source.allDefinitions tree settings.allowBlankLines sources = .ok listed ∧
      (∀ name, name ∈ map.keys ↔ name ∈ listed.map Variable.name) ∧
      (∀ name ∈ map.keys, ∃ before entry after,
        IsLastDefinition listed before entry after ∧ entry.name = name) ∧
      ∀ before entry after, IsLastDefinition listed before entry after →
        ∃ earlier, (∀ origin, defineAll settings origin .empty before = ⟨earlier, none⟩) ∧
          (entry.value.expand earlier).missing = [] ∧
          map.get? entry.name = some (entry.value.expand earlier).text ∧
          ∀ origin others, entry.name ∉ others.map Variable.name →
            (defineAll settings origin .empty (before ++ entry :: others)).map.get? entry.name =
              map.get? entry.name := by
  obtain ⟨listed, read, defined⟩ := addSources_eq_ok_iff.mp (ofSources_eq_ok_iff.mp merged)
  have valid := Source.isValid_value_of_allDefinitions read
  have binds : map.BindsNames ([] ++ listed) := bindsNames_empty.defineAll defined
  refine ⟨listed, read, fun name => binds.mem_keys_iff, ?_, ?_⟩
  · intro name bound
    exact exists_isLastDefinition (binds.mem_keys_iff.mp bound)
  · intro before entry after last
    rw [last.split] at valid defined
    obtain ⟨earlier, made, resolved⟩ := exists_earlier_of_defineAll valid defined
    obtain ⟨beforeValid, othersValid⟩ := List.forall_mem_append.mp valid
    have own : Value.isValid entry.value = true := othersValid entry List.mem_cons_self
    have everyOrigin (origin : Text) :
        defineAll settings origin .empty before = ⟨earlier, none⟩ :=
      (defineAll_eq_ok_iff_of_origin beforeValid origin).mp made
    have bound := get?_defineAll_append_cons made own resolved last.last
    rw [defined] at bound
    refine ⟨earlier, everyOrigin, resolved, bound, ?_⟩
    intro origin others absent
    rw [get?_defineAll_append_cons (everyOrigin origin) own resolved absent]
    exact bound.symm

/-- A name is redefined after another one referred to it, in the same source and in the next
one, where its own last value is referred to in turn. -/
theorem ofSources_binds_last_definition_redefined :
    let sources : List Source := [.text "one".toList "A=1\nB=$A\nA=\"2 $B\"\n".toList,
      .text "two".toList "C=$A$B\nA=$A;\n".toList]
    let map : VariableMap := .ofVariables [⟨"A".toList, "2 1;".toList⟩,
      ⟨"B".toList, "1".toList⟩, ⟨"C".toList, "2 11".toList⟩]
    let before : List Variable := [⟨"A".toList, "1".toList⟩, ⟨"B".toList, "$A".toList⟩,
      ⟨"A".toList, "\"2 $B\"".toList⟩]
    let entry : Variable := ⟨"C".toList, "$A$B".toList⟩
    ofSources ⟨false, false⟩ .empty sources = .ok map ∧
      ∃ earlier, defineAll ⟨false, false⟩ "any".toList .empty before = ⟨earlier, none⟩ ∧
        map.get? "C".toList = some (entry.value.expand earlier).text ∧
        map.get? "A".toList ≠ earlier.get? "A".toList := by
  intro sources map before entry
  have merged : ofSources ⟨false, false⟩ .empty sources = .ok map := by decide +kernel
  obtain ⟨listed, read, -, -, bound⟩ := ofSources_binds_last_definition merged
  have whole : listed = before ++ entry :: [⟨"A".toList, "$A;".toList⟩] := by
    apply Except.ok.inj
    rw [← read]
    decide +kernel
  obtain ⟨earlier, made, -, value, -⟩ := bound before entry _ ⟨whole, by decide⟩
  refine ⟨merged, earlier, made _, value, ?_⟩
  have own : defineAll ⟨false, false⟩ [] .empty before =
      ⟨.ofVariables [⟨"A".toList, "\"2 1\"".toList⟩, ⟨"B".toList, "1".toList⟩], none⟩ := by
    decide +kernel
  rw [made] at own
  cases own
  decide +kernel

end VariableMap

end Dotenv
