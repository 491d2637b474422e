import Dotenv.Proofs.Grounding
import Dotenv.Proofs.MergeSteps
import Mathlib.Data.Finset.Card

/-!
# Names that a merge binds

The map of sources binds the names of their definitions and no others, however often each
is defined.  It has as many entries as there are different names.
-/

namespace Dotenv

namespace VariableMap

variable {settings : Settings} {origin : Text} {map after : VariableMap}
  {earlier listed : List Variable}

theorem BindsNames.defineAll (binds : map.BindsNames earlier)
    (defined : map.defineAll settings origin listed = ⟨after, none⟩) :
    after.BindsNames (earlier ++ listed) := by
  induction listed generalizing map earlier with
  | nil =>
      cases defined
      rwa [List.append_nil]
  | cons entry rest ih =>
      rw [VariableMap.defineAll, define] at defined
      cases resolved :
        entry.value.resolve settings.strictReferences map (some entry.name) origin with
      | error fault =>
          rw [resolved] at defined
          cases defined
      | ok value =>
          rw [resolved] at defined
          have bound := ih (binds.insert entry value) defined
          rwa [List.append_assoc, List.singleton_append] at bound

theorem BindsNames.mem_keys_iff (binds : map.BindsNames listed) {name : Text} :
    name ∈ map.keys ↔ name ∈ listed.map Variable.name := by
  rw [SortedMap.mem_keys_iff, binds name, List.mem_map]

theorem BindsNames.size_eq (binds : map.BindsNames listed) :
    map.size = (listed.map Variable.name).toFinset.card := by
  have same : map.keys.toFinset = (listed.map Variable.name).toFinset := by
    ext name
    rw [List.mem_toFinset, List.mem_toFinset, binds.mem_keys_iff]
  rw [← same, List.toFinset_card_of_nodup map.nodup_keys, SortedMap.keys, List.length_map,
    SortedMap.size]

/-- The map of sources that can be merged binds the names of their definitions. -/
theorem bindsNames_of_ofSources {tree : FileTree} {sources : List Source}
    (merged : ofSources settings tree sources = .ok map) :
    ∃ listed, Source.allDefinitions tree settings.allowBlankLines sources = .ok listed ∧
      map.BindsNames listed := by
  obtain ⟨listed, read, defined⟩ := addSources_eq_ok_iff.mp (ofSources_eq_ok_iff.mp merged)
  exact ⟨listed, read, bindsNames_empty.defineAll defined⟩

end VariableMap

end Dotenv
