import Dotenv.Proofs.Pieces
import Dotenv.Proofs.StrictReferences

/-!
# References to earlier definitions

Whether definitions can be merged depends on their names and on the names that
their values refer to, and on nothing else in the values: each reference has to
name a definition before it.
-/

namespace Dotenv

/-- The names that a value refers to although no variable before it defines them. -/
def Variable.undefinedNames (earlier : List Variable) (entry : Variable) : List Text :=
  entry.value.referencedNames.filter fun name => name ∉ earlier.map Variable.name

section Grounded

variable {earlier rest : List Variable} {entry : Variable}

end Grounded

namespace VariableMap

/-- A map binds the names of variables and no others. -/
def BindsNames (map : VariableMap) (earlier : List Variable) : Prop :=
  ∀ name, map.contains name = true ↔ ∃ definition ∈ earlier, definition.name = name

theorem bindsNames_empty : BindsNames .empty [] := by
  intro name
  simp [SortedMap.contains]

theorem BindsNames.insert {map : VariableMap} {earlier : List Variable}
    (binds : map.BindsNames earlier) (entry : Variable) (value : Text) :
    BindsNames (map.insert entry.name value) (earlier ++ [entry]) := by
  intro name
  have old := binds name
  by_cases own : name = entry.name
  · simp [SortedMap.contains, own]
  · simp only [SortedMap.contains, SortedMap.get?_insert, own, if_false]
    rw [← SortedMap.contains, old]
    simp [Ne.symm own]

theorem BindsNames.expand_missing {map : VariableMap} {earlier : List Variable}
    (binds : map.BindsNames earlier) (entry : Variable) :
    (entry.value.expand map).missing = entry.undefinedNames earlier := by
  rw [Text.expand_missing, Variable.undefinedNames]
  apply List.filter_congr
  intro name _
  have known := binds name
  cases bound : map.contains name with
  | true =>
      have listed := known.mp bound
      simpa using listed
  | false =>
      rw [bound] at known
      simpa using known

end VariableMap

end Dotenv
