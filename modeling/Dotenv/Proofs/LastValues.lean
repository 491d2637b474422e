import Dotenv.Layout
import Dotenv.Proofs.MergedMap
import Mathlib.Data.List.Induction
import Mathlib.Data.List.Sort

/-!
# Last values in name order

Three ways lead from a list of variables to one value for each name: merging them,
collecting them in a map, and listing that map again.  They agree where nothing is there to
expand.  Whatever the values are, the listed map has each name once, in code point order,
with the last value that it was given.
-/

namespace Dotenv

namespace Text

def codePoints (text : Text) : List Nat := text.map Char.toNat

/-- Names are compared by their code points. -/
theorem compare_eq_lt_iff {first second : Text} :
    compare first second = .lt ↔ first.codePoints < second.codePoints := by
  induction first generalizing second with
  | nil =>
      cases second with
      | nil => simp [codePoints]
      | cons other later => exact iff_of_true List.compareLex_nil_cons (List.nil_lt_cons _ _)
  | cons character rest ih =>
      cases second with
      | nil =>
          have greater : compare (character :: rest) [] = .gt := List.compareLex_cons_nil
          simp [greater, codePoints]
      | cons other later =>
          have split : compare (character :: rest) (other :: later) =
              (compare character other).then (compare rest later) :=
            List.compareLex_cons_cons
          have less : compare character other = .lt ↔ character.toNat < other.toNat :=
            compareOfLessAndEq_eq_lt
          rw [split, Ordering.then_eq_lt, less, Std.compare_eq_iff_eq, ih]
          simp [codePoints, List.cons_lt_cons_iff, Char.toNat_inj]

end Text

namespace Variable

/-- The name of a variable comes before that of another one in code point order. -/
def Precedes (earlier later : Variable) : Prop :=
  earlier.name.codePoints < later.name.codePoints

instance : Std.Asymm Precedes := ⟨fun _ _ => List.lt_asymm⟩

/-- The last variable of a name. -/
def last? (listed : List Variable) (name : Text) : Option Variable :=
  (listed.filter fun entry => entry.name = name).getLast?

theorem name_of_last? {listed : List Variable} {name : Text} {entry : Variable}
    (last : last? listed name = some entry) : entry.name = name := by
  have member := List.mem_of_getLast? last
  simpa using (List.mem_filter.mp member).2

theorem last?_concat (listed : List Variable) (entry : Variable) (name : Text) :
    last? (listed ++ [entry]) name =
      if name = entry.name then some entry else last? listed name := by
  rw [last?, List.filter_append, List.getLast?_append]
  by_cases own : entry.name = name
  · simp [own]
  · simp [own, Ne.symm own, last?]

/-- Variables in the code point order of their names, each name with the variable that has it
last among some listed ones. -/
structure AreLastValues (listed sorted : List Variable) : Prop where
  increasing : sorted.Pairwise Precedes
  last (name : Text) : (sorted.filter fun entry => entry.name = name) =
    (last? listed name).toList

/-- There is one way only to list the last values. -/
theorem AreLastValues.unique {listed first second : List Variable}
    (firstLast : AreLastValues listed first) (secondLast : AreLastValues listed second) :
    first = second := by
  have members (entry : Variable) : entry ∈ first ↔ entry ∈ second := by
    have same := (firstLast.last entry.name).trans (secondLast.last entry.name).symm
    simpa using congrArg (entry ∈ ·) same
  exact firstLast.increasing.eq_of_mem_iff secondLast.increasing members

end Variable

namespace VariableMap

theorem ofVariables_concat (listed : List Variable) (entry : Variable) :
    ofVariables (listed ++ [entry]) = (ofVariables listed).insert entry.name entry.value := by
  simp [ofVariables_eq_foldl]

theorem get?_ofVariables (listed : List Variable) (name : Text) :
    (ofVariables listed).get? name = (Variable.last? listed name).map Variable.value := by
  induction listed using List.reverseRecOn with
  | nil => rfl
  | append_singleton listed entry ih =>
      rw [ofVariables_concat, SortedMap.get?_insert, ih, Variable.last?_concat]
      split <;> rfl

theorem increasing_toVariables (map : VariableMap) :
    map.toVariables.Pairwise Variable.Precedes := by
  rw [toVariables, List.pairwise_map]
  exact map.increasing.imp Text.compare_eq_lt_iff.mp

/-- A map has one variable for each name that it binds. -/
theorem filter_toVariables (map : VariableMap) (name : Text) :
    (map.toVariables.filter fun entry => entry.name = name) =
      ((map.get? name).map (Variable.mk name)).toList := by
  have increasing := (increasing_toVariables map).filter fun entry => entry.name = name
  have single : ((map.get? name).map (Variable.mk name)).toList.Pairwise Variable.Precedes := by
    cases map.get? name <;> simp
  apply increasing.eq_of_mem_iff single
  intro entry
  simp only [List.mem_filter, mem_toVariables_iff, decide_eq_true_eq, Option.mem_toList,
    Option.map_eq_some_iff]
  constructor
  · rintro ⟨found, rfl⟩
    exact ⟨entry.value, found, rfl⟩
  · rintro ⟨value, found, rfl⟩
    exact ⟨found, rfl⟩

theorem areLastValues_ofVariables (listed : List Variable) :
    Variable.AreLastValues listed (ofVariables listed).toVariables where
  increasing := increasing_toVariables _
  last := by
    intro name
    rw [filter_toVariables, get?_ofVariables, Option.map_map]
    cases found : Variable.last? listed name with
    | none => rfl
    | some entry =>
        cases Variable.name_of_last? found
        rfl

/-- Collecting variables keeps the last value of each name in code point order, and a merge
of values without references keeps the same.  Listing and writing the map depends on nothing
else. -/
theorem ofVariables_keeps_last_values (listed : List Variable) :
    ((∀ entry ∈ listed, ¬ entry.value.HasReference) → ∀ allowBlank origin,
      defineAll ⟨allowBlank, false⟩ origin .empty listed = ⟨ofVariables listed, none⟩) ∧
    Variable.AreLastValues listed (ofVariables listed).toVariables ∧
    ∀ sorted, Variable.AreLastValues listed sorted →
      (ofVariables listed).toVariables = sorted ∧
        ∀ layout : Layout, layout.renderMap (ofVariables listed) = layout.render sorted := by
  refine ⟨?_, areLastValues_ofVariables listed, ?_⟩
  · intro plain allowBlank origin
    apply defineAll_empty_of_references_eq_nil
    intro entry member
    refine ⟨?_, Text.references_eq_nil_iff.mpr (plain entry member)⟩
    intro strict
    cases strict
  · intro sorted lastValues
    have same := (areLastValues_ofVariables listed).unique lastValues
    refine ⟨same, ?_⟩
    intro layout
    rw [Layout.renderMap, same]

/-- Names in any order that come again, in values that only look like references, with
a name beyond ASCII and one that is no name. -/
theorem ofVariables_keeps_last_values_unsorted :
    let listed : List Variable := [⟨"é".toList, "$\x7bA B\x7d".toList⟩,
      ⟨"b".toList, "\"1\"".toList⟩, ⟨"Z".toList, "$".toList⟩, ⟨"b".toList, "$2".toList⟩,
      ⟨"".toList, "\\\n".toList⟩, ⟨"Z".toList, "x".toList⟩]
    let sorted : List Variable := [⟨"".toList, "\\\n".toList⟩, ⟨"Z".toList, "x".toList⟩,
      ⟨"b".toList, "$2".toList⟩, ⟨"é".toList, "$\x7bA B\x7d".toList⟩]
    defineAll ⟨false, false⟩ "any".toList .empty listed = ⟨ofVariables listed, none⟩ ∧
      Variable.AreLastValues listed sorted ∧ (ofVariables listed).toVariables = sorted ∧
      Layout.dotenv.renderMap (ofVariables listed) =
        "=\\\n\nZ=x\nb=$2\né=$\x7bA B\x7d\n".toList := by
  intro listed sorted
  obtain ⟨merged, lastValues, same⟩ := ofVariables_keeps_last_values listed
  have noReferences : ∀ entry ∈ listed, entry.value.references = [] := by decide +kernel
  have plain : ∀ entry ∈ listed, ¬ entry.value.HasReference :=
    fun entry member => Text.references_eq_nil_iff.mp (noReferences entry member)
  have whole : (ofVariables listed).toVariables = sorted := by decide +kernel
  rw [whole] at lastValues
  obtain ⟨-, written⟩ := same sorted lastValues
  refine ⟨merged plain false _, lastValues, whole, ?_⟩
  rw [written]
  decide +kernel

end VariableMap

end Dotenv
