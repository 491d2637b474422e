import Dotenv.Proofs.MergeSteps
import Dotenv.Proofs.Pieces

/-!
# Merging onto other definitions

Sources that can be merged on their own refer to nothing but what they define.  Merged
onto any other map they therefore define the same again: their values cover those of the
map, and its other values stay.
-/

namespace Dotenv

namespace VariableMap

/-- The entries of a map over those of another, which show where the first has none. -/
def covering (upper lower : VariableMap) : VariableMap :=
  upper.entries.foldl (fun map entry => map.insert entry.1 entry.2) lower

section Covering

variable (upper lower : VariableMap)

@[simp]
theorem get?_covering (name : Text) :
    (upper.covering lower).get? name = (upper.get? name).or (lower.get? name) :=
  SortedMap.get?_foldl_insert upper.nodup_keys lower name

@[simp]
theorem empty_covering : covering .empty lower = lower := rfl

theorem covering_covering : upper.covering (upper.covering lower) = upper.covering lower := by
  apply SortedMap.ext_get?
  intro name
  rw [get?_covering, get?_covering, ← Option.or_assoc, Option.or_self]

theorem insert_covering (name value : Text) :
    covering (upper.insert name value) lower = (upper.covering lower).insert name value := by
  apply SortedMap.ext_get?
  intro other
  rw [get?_covering, SortedMap.get?_insert, SortedMap.get?_insert, get?_covering]
  split
  · rfl
  · rfl

end Covering

/-- What lies below does not show in a text whose references are all bound above. -/
theorem expand_covering {upper : VariableMap} {text : Text}
    (resolved : (text.expand upper).missing = []) (lower : VariableMap) :
    text.expand (upper.covering lower) = text.expand upper := by
  apply Text.expand_congr
  intro name referenced
  have bound := Text.expand_missing_eq_nil_iff.mp resolved name referenced
  obtain ⟨value, found⟩ := Option.isSome_iff_exists.mp bound
  rw [get?_covering, found, Option.some_or]

section Onto

variable {settings : Settings} {tree : FileTree} {upper after : VariableMap}
  (lower : VariableMap)

theorem defineAll_covering {origin : Text} {listed : List Variable}
    (valid : ∀ entry ∈ listed, Value.isValid entry.value = true)
    (run : upper.defineAll settings origin listed = ⟨after, none⟩) :
    (upper.covering lower).defineAll settings origin listed = ⟨after.covering lower, none⟩ := by
  induction listed generalizing upper with
  | nil =>
      cases run
      rfl
  | cons entry rest ih =>
      obtain ⟨own, others⟩ := List.forall_mem_cons.mp valid
      obtain ⟨resolved, later⟩ := (defineAll_cons_eq_ok_iff own).mp run
      have same := expand_covering resolved lower
      apply (defineAll_cons_eq_ok_iff own).mpr
      rw [same, ← insert_covering]
      exact ⟨resolved, ih others later⟩

theorem addSource_covering {source : Source}
    (run : upper.addSource settings tree source = ⟨after, none⟩) :
    (upper.covering lower).addSource settings tree source = ⟨after.covering lower, none⟩ := by
  obtain ⟨listed, read, defined⟩ := addSource_eq_ok_iff.mp run
  apply addSource_eq_ok_iff.mpr
  exact ⟨listed, read,
    defineAll_covering lower (Source.isValid_value_of_definitions read) defined⟩

theorem addSources_covering {sources : List Source}
    (run : upper.addSources settings tree sources = ⟨after, none⟩) :
    (upper.covering lower).addSources settings tree sources = ⟨after.covering lower, none⟩ := by
  induction sources generalizing upper with
  | nil =>
      cases run
      rfl
  | cons source rest ih =>
      obtain ⟨next, first, later⟩ := addSources_cons_eq_ok_iff.mp run
      apply addSources_cons_eq_ok_iff.mpr
      exact ⟨next.covering lower, addSource_covering lower first, ih later⟩

end Onto

/-- Sources that can be merged on their own can be merged onto every map.  They bind what
they bind on their own, every other name stays as it was, and merging them once more
changes nothing. -/
theorem addSources_of_ofSources {settings : Settings} {tree : FileTree}
    {sources : List Source} {map : VariableMap}
    (merged : ofSources settings tree sources = .ok map) (start : VariableMap) :
    ∃ after, start.addSources settings tree sources = ⟨after, none⟩ ∧
      (∀ name, after.get? name = (map.get? name).or (start.get? name)) ∧
      after.addSources settings tree sources = ⟨after, none⟩ := by
  have run := ofSources_eq_ok_iff.mp merged
  have first := addSources_covering start run
  have second := addSources_covering (map.covering start) run
  rw [empty_covering] at first second
  rw [covering_covering] at second
  exact ⟨map.covering start, first, get?_covering map start, second⟩

/-- A definition that names itself sees the earlier one of its own sources. -/
theorem addSources_onto_bound :
    let sources : List Source :=
      [.text "first".toList "A=1\nB=$A\n".toList, .text "second".toList "A=\"${A}2\"\n".toList]
    let map : VariableMap :=
      .ofVariables [⟨"A".toList, "\"12\"".toList⟩, ⟨"B".toList, "1".toList⟩]
    let start : VariableMap :=
      .ofVariables [⟨"A".toList, "0".toList⟩, ⟨"C".toList, "$A".toList⟩]
    ofSources ⟨false, true⟩ .empty sources = .ok map ∧
      ∃ after, start.addSources ⟨false, true⟩ .empty sources = ⟨after, none⟩ ∧
        (∀ name, after.get? name = (map.get? name).or (start.get? name)) ∧
        after.addSources ⟨false, true⟩ .empty sources = ⟨after, none⟩ := by
  intro sources map start
  have merged : ofSources ⟨false, true⟩ .empty sources = .ok map := by decide +kernel
  exact ⟨merged, addSources_of_ofSources merged start⟩

end VariableMap

end Dotenv
