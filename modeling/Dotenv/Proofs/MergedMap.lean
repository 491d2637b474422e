import Dotenv.Proofs.MergeSteps
import Dotenv.Proofs.Pieces

/-!
# Maps that merges leave behind

A map is changed by definitions alone, and each of them comes from a line: it binds
a name to an expanded value.  What every such binding keeps therefore holds of each
map that merges leave behind, failed merges included.
-/

namespace Dotenv

theorem Text.not_mem_expand {map : VariableMap} {character : Char} {text : Text}
    (bound : ∀ name value, map.get? name = some value → character ∉ value)
    (absent : character ∉ text) : character ∉ (expand map text).text := by
  fun_induction pieces text with
  | case1 =>
      rw [expand_nil]
      exact absent
  | case2 first rest reference after found ih =>
      have joined := Reference.append_of_next? found
      rw [← joined, List.mem_append, not_or] at absent
      rw [expand_of_next? found, List.mem_append, not_or]
      constructor
      · cases known : map.get? reference.name with
        | some value =>
            simp only [Piece.expanded, known]
            intro inside
            exact bound _ _ known ((unquoted_sublist value).subset inside)
        | none =>
            simp only [Piece.expanded, known]
            exact absent.1
      · exact ih absent.2
  | case3 first rest missing ih =>
      rw [List.mem_cons, not_or] at absent
      rw [expand_cons_of_not_next? missing, List.mem_cons, not_or]
      exact ⟨absent.1, ih absent.2⟩

namespace VariableMap

section Definitions

variable {settings : Settings} {origin : Text}

theorem get?_defineAll_of_not_mem {map : VariableMap} {listed : List Variable} {name : Text}
    (absent : name ∉ listed.map Variable.name) :
    (map.defineAll settings origin listed).map.get? name = map.get? name := by
  induction listed generalizing map with
  | nil => rfl
  | cons entry rest ih =>
      rw [List.map_cons, List.mem_cons, not_or] at absent
      rw [defineAll, define]
      cases entry.value.resolve settings.strictReferences map (some entry.name) origin with
      | error fault => rfl
      | ok value =>
          simp only [Except.map]
          rw [ih absent.2, SortedMap.get?_insert, if_neg absent.1]

theorem ofVariables_eq_foldl (listed : List Variable) :
    ofVariables listed =
      listed.foldl (fun map entry => map.insert entry.name entry.value) .empty :=
  List.foldl_map

/-- Clean values without references are defined as they are. -/
theorem defineAll_of_references_eq_nil {map : VariableMap} {listed : List Variable}
    (plain : ∀ entry ∈ listed,
      entry.value.IsClean settings.strictReferences ∧ entry.value.references = []) :
    map.defineAll settings origin listed =
      ⟨listed.foldl (fun map entry => map.insert entry.name entry.value) map, none⟩ := by
  induction listed generalizing map with
  | nil => rfl
  | cons entry rest ih =>
      obtain ⟨⟨clean, noReferences⟩, others⟩ := List.forall_mem_cons.mp plain
      have unchanged := Text.expand_of_references_eq_nil noReferences map
      rw [defineAll_cons_of_isClean clean, unchanged, if_pos rfl]
      exact ih others

theorem defineAll_empty_of_references_eq_nil {listed : List Variable}
    (plain : ∀ entry ∈ listed,
      entry.value.IsClean settings.strictReferences ∧ entry.value.references = []) :
    defineAll settings origin .empty listed = ⟨ofVariables listed, none⟩ := by
  rw [defineAll_of_references_eq_nil plain, ofVariables_eq_foldl]

theorem defineAll_toVariables {map : VariableMap}
    (valid : ∀ entry ∈ map.toVariables,
      Value.isValid entry.value = true ∧ entry.value.references = []) :
    defineAll settings origin .empty map.toVariables = ⟨map, none⟩ := by
  have plain : ∀ entry ∈ map.toVariables,
      entry.value.IsClean settings.strictReferences ∧ entry.value.references = [] := by
    intro entry member
    obtain ⟨validValue, noReferences⟩ := valid entry member
    exact ⟨Value.isClean_of_isValid validValue _, noReferences⟩
  rw [defineAll_empty_of_references_eq_nil plain, map.ofVariables_toVariables]

theorem ofSources_text_eq_ok_iff {tree : FileTree} {content : Text} {map : VariableMap} :
    ofSources settings tree [.text origin content] = .ok map ↔
      content.IsWellFormed settings.allowBlankLines ∧
        defineAll settings origin .empty (content.definitions settings.allowBlankLines) =
          ⟨map, none⟩ := by
  rw [ofSources_eq_ok_iff, addSources_cons_eq_ok_iff]
  simp [addSources, addSource_eq_ok_iff, Source.definitions_text_eq_ok_iff, Source.origin,
    and_assoc]

end Definitions

/-- The maps that merges of sources one after the other leave behind, whether they
fail or not. -/
inductive Reached (settings : Settings) : VariableMap → Prop where
  | empty : Reached settings .empty
  | addSource {map : VariableMap} (reached : Reached settings map) (tree : FileTree)
      (source : Source) : Reached settings (map.addSource settings tree source).map

section Invariant

variable {settings : Settings} {holds : VariableMap → Prop}
  (define : ∀ (map : VariableMap) (entry : Variable), holds map → Name.isValid entry.name = true →
    Value.isValid entry.value = true → (entry.value.expand map).missing = [] →
    holds (map.insert entry.name (entry.value.expand map).text))

include define

theorem defineAll_keeps (origin : Text) {map : VariableMap} (start : holds map)
    {listed : List Variable}
    (valid : ∀ entry ∈ listed,
      Name.isValid entry.name = true ∧ Value.isValid entry.value = true) :
    holds (map.defineAll settings origin listed).map := by
  induction listed generalizing map with
  | nil => exact start
  | cons entry rest ih =>
      obtain ⟨⟨validName, validValue⟩, others⟩ := List.forall_mem_cons.mp valid
      rw [defineAll_cons_of_isClean (Value.isClean_of_isValid validValue _)]
      split
      · rename_i resolved
        exact ih (define map entry start validName validValue resolved) others
      · exact start

theorem addSource_keeps (tree : FileTree) {map : VariableMap} (start : holds map)
    (source : Source) : holds (map.addSource settings tree source).map := by
  unfold addSource
  cases read : source.definitions tree settings.allowBlankLines with
  | error fault => exact start
  | ok listed =>
      apply defineAll_keeps define source.origin start
      exact fun entry member => Source.isValid_of_mem read member

theorem Reached.keeps {map : VariableMap} (reached : Reached settings map)
    (start : holds .empty) : holds map := by
  induction reached with
  | empty => exact start
  | addSource reached tree source ih => exact addSource_keeps define tree ih source

end Invariant

/-- What each definition makes of its own entry, given what holds of the entries before it,
holds of every entry. -/
theorem Reached.forall_get? {settings : Settings} {holds : Text → Text → Prop}
    {map : VariableMap} (reached : Reached settings map)
    (define : ∀ (map : VariableMap) (entry : Variable),
      (∀ name value, map.get? name = some value → holds name value) →
      Name.isValid entry.name = true → Value.isValid entry.value = true →
      (entry.value.expand map).missing = [] →
      holds entry.name (entry.value.expand map).text) :
    ∀ name value, map.get? name = some value → holds name value := by
  apply reached.keeps
  · intro map entry old validName validValue resolved
    exact SortedMap.forall_get?_insert old (define map entry old validName validValue resolved)
  · intro name value found
    cases found

theorem Reached.addSources {settings : Settings} {map : VariableMap}
    (reached : Reached settings map) (tree : FileTree) (sources : List Source) :
    Reached settings (map.addSources settings tree sources).map := by
  induction sources generalizing map with
  | nil => exact reached
  | cons source rest ih =>
      rw [VariableMap.addSources]
      split
      · exact ih (reached.addSource tree source)
      · exact reached.addSource tree source

theorem reached_of_ofSources {settings : Settings} {tree : FileTree}
    {sources : List Source} {map : VariableMap}
    (merged : ofSources settings tree sources = .ok map) : Reached settings map := by
  have start : Reached settings .empty := .empty
  have reached := start.addSources tree sources
  rw [ofSources_eq_ok_iff.mp merged] at reached
  exact reached

/-- The names are names and the values are without line feeds. -/
def IsSingleLine (map : VariableMap) : Prop :=
  ∀ name value, map.get? name = some value → Name.isValid name = true ∧ '\n' ∉ value

theorem Reached.isSingleLine {settings : Settings} {map : VariableMap}
    (reached : Reached settings map) : map.IsSingleLine := by
  refine reached.forall_get? ?_
  intro map entry single validName validValue _
  refine ⟨validName, Text.not_mem_expand ?_ (Value.lineFeed_not_mem validValue)⟩
  intro name value found
  exact (single name value found).2

end VariableMap

end Dotenv
