import Dotenv.SortedMap
import Dotenv.Text.Quoted

/-!
# Variables

A variable is a name with a raw value, quotes included.  A list of variables
keeps its order and its duplicates; a variable map keeps the last value of each
name, in the code point order of the names.
-/

namespace Dotenv

/-- A name with its raw value. -/
structure Variable where
  name : Text
  value : Text
  deriving DecidableEq, Repr

def Variable.unquoted (entry : Variable) : Text := entry.value.unquoted

/-- Raw values by name, in the code point order of the names. -/
abbrev VariableMap := SortedMap Text Text

namespace VariableMap

/-- The map in which each name has the value of its last variable. -/
def ofVariables (listed : List Variable) : VariableMap :=
  .ofList (listed.map fun entry => (entry.name, entry.value))

/-- The entries as variables, in name order. -/
def toVariables (map : VariableMap) : List Variable :=
  map.entries.map fun entry => ⟨entry.1, entry.2⟩

/-- The variables of a map are the entries that its lookups find. -/
theorem mem_toVariables_iff {map : VariableMap} {entry : Variable} :
    entry ∈ map.toVariables ↔ map.get? entry.name = some entry.value := by
  rw [SortedMap.get?_eq_some_iff, toVariables, List.mem_map]
  constructor
  · rintro ⟨pair, member, equal⟩
    rw [← equal]
    exact member
  · intro member
    exact ⟨_, member, rfl⟩

theorem nodup_names (map : VariableMap) : (map.toVariables.map Variable.name).Nodup := by
  rw [toVariables, List.map_map]
  exact map.nodup_keys

/-- The map of the variables of a map is this map. -/
theorem ofVariables_toVariables (map : VariableMap) : ofVariables map.toVariables = map := by
  rw [ofVariables, toVariables, List.map_map]
  exact (congrArg SortedMap.ofList (List.map_id _)).trans map.ofList_entries

/-- The environment that a program sees: every value without its quotes. -/
def programEnvironment (map : VariableMap) : List (Text × Text) :=
  map.entries.map fun entry => (entry.1, entry.2.unquoted)

/-- The process environment as `NAME=value` strings. -/
def environmentStrings (map : VariableMap) : List Text :=
  map.programEnvironment.map fun entry => entry.1 ++ '=' :: entry.2

end VariableMap

end Dotenv
