import Dotenv.Proofs.EntryLines
import Dotenv.Proofs.GuardedDollars

/-!
# Reading a written map again

A merged map that is written out and merged again comes back unchanged exactly when a
line can hold each of its values and none of them has a reference in it.  Nothing is
quoted or escaped where a value is written, so all other values change or fail.  Maps with
a value that ends in a carriage return are left aside.
-/

namespace Dotenv

/-- A value that comes back where it is written on a line: a line can hold it, and no
part of it is expanded. -/
def Value.Survives (value : Text) : Prop :=
  isValid value = true ∧ (∀ first ∈ value.head?, Text.isBlank first = false) ∧
    value.references = []

instance (value : Text) : Decidable (Value.Survives value) :=
  have : Decidable (∀ first ∈ value.head?, Text.isBlank first = false) :=
    Option.decidableForallMem value.head?
  inferInstanceAs (Decidable (_ ∧ _ ∧ _))

theorem Layout.exists_readBack (entry : Variable) :
    ∃ blanks ending, (∀ character ∈ blanks, Text.isBlank character = true) ∧
      entry.value = blanks ++ ((readBack entry).value ++ ending) := by
  obtain ⟨ending, whole⟩ := entry.value.exists_withoutReturn_append
  obtain ⟨blanks, areBlank, equal⟩ := entry.value.withoutReturn.exists_blanks_append
  refine ⟨blanks, ending, areBlank, ?_⟩
  rw [readBack, ← List.append_assoc, ← equal]
  exact whole

theorem Value.Survives.readBack_eq {entry : Variable} (survives : Value.Survives entry.value)
    (noReturn : entry.value.getLast? ≠ some '\r') : Layout.readBack entry = entry :=
  Layout.readBack_eq_self_iff.mpr ⟨survives.2.1, noReturn⟩

namespace VariableMap

/-- A line whose value expands to what was written on it holds the written value as it
is, and nothing in it is expanded. -/
theorem IsGuarded.readBack_eq {map : VariableMap} (guarded : map.IsGuarded)
    {entry : Variable} (valid : Value.isValid (Layout.readBack entry).value = true)
    (resolved : (Text.expand map (Layout.readBack entry).value).missing = [])
    (written : (Text.expand map (Layout.readBack entry).value).text = entry.value) :
    Layout.readBack entry = entry ∧ entry.value.references = [] := by
  have noReferences : Text.references (Layout.readBack entry).value = [] := by
    have accounted := Value.accounted_of_isValid valid
    obtain ⟨blanks, ending, areBlank, equal⟩ := Layout.exists_readBack entry
    apply accounted.references_eq_nil_of_blanks guarded resolved _ areBlank
    · exact written.trans equal
    · intro first member
      exact Text.not_blank_of_mem_head?_trimBlanks member
  rw [Text.expand_of_references_eq_nil noReferences] at written
  constructor
  · cases entry
    exact congrArg (Variable.mk _) written
  · exact written ▸ noReferences

variable {settings : Settings} {origin : Text}

theorem readBack_eq_of_defineAll {map : VariableMap} {listed : List Variable}
    (guarded : map.IsGuarded) (distinct : (listed.map Variable.name).Nodup)
    (valid : ∀ entry ∈ listed, Value.isValid (Layout.readBack entry).value = true)
    (noFault : (map.defineAll settings origin (listed.map Layout.readBack)).fault = none)
    (kept : ∀ entry ∈ listed,
      (map.defineAll settings origin (listed.map Layout.readBack)).map.get? entry.name =
        some entry.value) :
    ∀ entry ∈ listed, Layout.readBack entry = entry ∧ entry.value.references = [] := by
  induction listed generalizing map with
  | nil => simp
  | cons entry rest ih =>
      obtain ⟨fresh, restDistinct⟩ := List.nodup_cons.mp distinct
      obtain ⟨own, others⟩ := List.forall_mem_cons.mp valid
      rw [List.map_cons] at noFault kept
      rw [defineAll_cons_of_isClean (Value.isClean_of_isValid own _)] at noFault kept
      have resolved : (Text.expand map (Layout.readBack entry).value).missing = [] := by
        by_contra absent
        rw [if_neg absent] at noFault
        cases noFault
      rw [if_pos resolved] at noFault kept
      obtain ⟨keptOwn, keptOthers⟩ := List.forall_mem_cons.mp kept
      -- no later variable has this name, so the map keeps what was defined here
      have written : (Text.expand map (Layout.readBack entry).value).text = entry.value := by
        have names : (rest.map Layout.readBack).map Variable.name =
            rest.map Variable.name := by
          rw [List.map_map]
          rfl
        rw [get?_defineAll_of_not_mem (names ▸ fresh), SortedMap.get?_insert,
          Layout.name_readBack, if_pos rfl] at keptOwn
        exact Option.some.inj keptOwn
      have stillGuarded := guarded.insert (Layout.readBack entry).name
        ((Value.accounted_of_isValid own).isGuarded_expand guarded resolved)
      refine List.forall_mem_cons.mpr ⟨?_, ?_⟩
      · exact guarded.readBack_eq own resolved written
      · exact ih stillGuarded restDistinct others noFault keptOthers

theorem ofSources_renderMap_iff {layout : Layout} (plain : layout.IsPlain)
    {map : VariableMap} (single : map.IsSingleLine)
    (noReturn : ∀ entry ∈ map.toVariables, entry.value.getLast? ≠ some '\r')
    (tree : FileTree) :
    ofSources settings tree [.text origin (layout.renderMap map)] = .ok map ↔
      ∀ entry ∈ map.toVariables, Value.Survives entry.value := by
  have lines := single.areSingleLine
  rw [ofSources_text_eq_ok_iff, Layout.renderMap, Layout.isWellFormed_render_iff plain _ lines]
  constructor
  · rintro ⟨valid, merged⟩
    rw [Layout.definitions_render plain _ lines valid] at merged
    have kept : ∀ entry ∈ map.toVariables,
        (defineAll settings origin .empty (map.toVariables.map Layout.readBack)).map.get?
          entry.name = some entry.value := by
      intro entry member
      rw [merged]
      exact mem_toVariables_iff.mp member
    have noFault := congrArg Merge.fault merged
    intro entry member
    obtain ⟨equal, noReferences⟩ := readBack_eq_of_defineAll isGuarded_empty map.nodup_names
      valid noFault kept entry member
    obtain ⟨visible, -⟩ := Layout.readBack_eq_self_iff.mp equal
    exact ⟨equal ▸ valid entry member, visible, noReferences⟩
  · intro survives
    have unchanged : ∀ entry ∈ map.toVariables, Layout.readBack entry = entry :=
      fun entry member => (survives entry member).readBack_eq (noReturn entry member)
    have same : map.toVariables.map Layout.readBack = map.toVariables := by
      rw [List.map_congr_left unchanged, List.map_id']
    have valid : ∀ entry ∈ map.toVariables,
        Value.isValid (Layout.readBack entry).value = true := by
      intro entry member
      rw [unchanged entry member]
      exact (survives entry member).1
    refine ⟨valid, ?_⟩
    rw [Layout.definitions_render plain _ lines valid, same]
    apply defineAll_toVariables
    intro entry member
    obtain ⟨validValue, -, noReferences⟩ := survives entry member
    exact ⟨validValue, noReferences⟩

/-- A merged map of which no value ends in a carriage return is merged again unchanged, when
it is written plainly or for a shell, exactly when each of its values survives. -/
theorem ofSources_printed_iff {tree : FileTree} {sources : List Source} {map : VariableMap}
    (merged : ofSources settings tree sources = .ok map)
    (noReturn : ∀ entry ∈ map.toVariables, entry.value.getLast? ≠ some '\r') (origin : Text) :
    (ofSources settings tree [.text origin (Layout.dotenv.renderMap map)] = .ok map ↔
      ∀ entry ∈ map.toVariables, Value.Survives entry.value) ∧
    (ofSources settings tree [.text origin (Layout.shellExport.renderMap map)] = .ok map ↔
      ∀ entry ∈ map.toVariables, Value.Survives entry.value) := by
  have single := (reached_of_ofSources merged).isSingleLine
  exact ⟨ofSources_renderMap_iff Layout.isPlain_dotenv single noReturn tree,
    ofSources_renderMap_iff Layout.isPlain_shellExport single noReturn tree⟩

/-- Quotes, inner blanks and escaped dollar signs survive. -/
theorem ofSources_printed_quoted :
    let map : VariableMap :=
      .ofVariables [⟨"A".toList, "\"a b\"".toList⟩, ⟨"B".toList, "a b\\$.".toList⟩]
    ofSources ⟨false, true⟩ .empty [.text [] "A=\"a b\"\nB=$A\\$.\n".toList] = .ok map ∧
      ofSources ⟨false, true⟩ .empty [.text [] (Layout.dotenv.renderMap map)] = .ok map ∧
      ofSources ⟨false, true⟩ .empty [.text [] (Layout.shellExport.renderMap map)] =
        .ok map := by
  intro map
  have merged : ofSources ⟨false, true⟩ .empty
      [.text [] "A=\"a b\"\nB=$A\\$.\n".toList] = .ok map := by decide +kernel
  have noReturn : ∀ entry ∈ map.toVariables, entry.value.getLast? ≠ some '\r' := by
    decide +kernel
  have survive : ∀ entry ∈ map.toVariables, Value.Survives entry.value := by
    decide +kernel
  obtain ⟨plain, shell⟩ := ofSources_printed_iff merged noReturn []
  exact ⟨merged, plain.mpr survive, shell.mpr survive⟩

/-- Values that do not survive: one that starts with a blank, one that ends in a backslash
and was quoted, and one whose parts make up a reference. -/
theorem ofSources_printed_changes :
    let merge (content : Text) := ofSources ⟨false, false⟩ .empty [.text [] content]
    let blank : VariableMap :=
      .ofVariables [⟨"A".toList, "\" x\"".toList⟩, ⟨"B".toList, " x".toList⟩]
    let escape : VariableMap :=
      .ofVariables [⟨"A".toList, "a\\".toList⟩, ⟨"B".toList, "\"a\\\"".toList⟩]
    let glued : VariableMap :=
      .ofVariables [⟨"A".toList, "\\$".toList⟩, ⟨"B".toList, "\\$C".toList⟩]
    (merge "A=\" x\"\nB=$A\n".toList = .ok blank ∧
      merge (Layout.dotenv.renderMap blank) ≠ .ok blank) ∧
    (merge "A=a\\\nB=\"$A\"\n".toList = .ok escape ∧
      merge (Layout.dotenv.renderMap escape) = .error (.malformedLine [] 2)) ∧
    (merge "A=\\$\nB=$\x7bA\x7dC\n".toList = .ok glued ∧
      merge (Layout.dotenv.renderMap glued) =
        .error (.undefinedReference (some "B".toList) [] ["C".toList])) := by
  decide +kernel

end VariableMap

end Dotenv
