import Dotenv.Proofs.StrictReferences

/-!
# Merges that succeed

A merge succeeds when each of its steps does: every definition is expanded with nothing
missing, every source is read and its definitions are made, one after the other.
-/

namespace Dotenv

namespace Source

/-- The definitions of sources in order, if all of them can be read. -/
def allDefinitions (tree : FileTree) (allowBlank : Bool) :
    List Source → Except Fault (List Variable)
  | [] => .ok []
  | source :: rest =>
    (source.definitions tree allowBlank).bind fun own =>
      (allDefinitions tree allowBlank rest).map (own ++ ·)

@[simp]
theorem allDefinitions_nil (tree : FileTree) (allowBlank : Bool) :
    allDefinitions tree allowBlank [] = .ok [] := rfl

theorem allDefinitions_cons_eq_ok_iff {tree : FileTree} {allowBlank : Bool} {source : Source}
    {rest : List Source} {listed : List Variable} :
    allDefinitions tree allowBlank (source :: rest) = .ok listed ↔
      ∃ own others, source.definitions tree allowBlank = .ok own ∧
        allDefinitions tree allowBlank rest = .ok others ∧ own ++ others = listed := by
  rw [allDefinitions]
  cases source.definitions tree allowBlank with
  | error fault => simp [Except.bind]
  | ok own =>
      cases allDefinitions tree allowBlank rest with
      | error fault => simp [Except.bind, Except.map]
      | ok others => simp [Except.bind, Except.map]

theorem isValid_value_of_allDefinitions {tree : FileTree} {allowBlank : Bool}
    {sources : List Source} {listed : List Variable}
    (read : allDefinitions tree allowBlank sources = .ok listed) :
    ∀ entry ∈ listed, Value.isValid entry.value = true := by
  induction sources generalizing listed with
  | nil =>
      cases read
      simp
  | cons source rest ih =>
      obtain ⟨own, others, ownRead, othersRead, joined⟩ :=
        allDefinitions_cons_eq_ok_iff.mp read
      rw [← joined, List.forall_mem_append]
      exact ⟨isValid_value_of_definitions ownRead, ih othersRead⟩

end Source

namespace VariableMap

variable {settings : Settings} {tree : FileTree} {origin : Text} {map after : VariableMap}

theorem defineAll_cons_eq_ok_iff {entry : Variable} (valid : Value.isValid entry.value = true)
    {rest : List Variable} :
    map.defineAll settings origin (entry :: rest) = ⟨after, none⟩ ↔
      (entry.value.expand map).missing = [] ∧
        defineAll settings origin (map.insert entry.name (entry.value.expand map).text) rest =
          ⟨after, none⟩ := by
  rw [defineAll_cons_of_isClean (Value.isClean_of_isValid valid _)]
  split
  · rename_i resolved
    simp [resolved]
  · rename_i unresolved
    simp [unresolved]

/-- The origin shows in faults only. -/
theorem defineAll_eq_ok_iff_of_origin {listed : List Variable}
    (valid : ∀ entry ∈ listed, Value.isValid entry.value = true) (other : Text) :
    map.defineAll settings origin listed = ⟨after, none⟩ ↔
      map.defineAll settings other listed = ⟨after, none⟩ := by
  induction listed generalizing map with
  | nil => exact Iff.rfl
  | cons entry rest ih =>
      obtain ⟨own, others⟩ := List.forall_mem_cons.mp valid
      rw [defineAll_cons_eq_ok_iff own, defineAll_cons_eq_ok_iff own, ih others]

theorem defineAll_append_of_eq_ok {first : List Variable}
    (made : map.defineAll settings origin first = ⟨after, none⟩) (second : List Variable) :
    map.defineAll settings origin (first ++ second) =
      after.defineAll settings origin second := by
  induction first generalizing map with
  | nil =>
      cases made
      rfl
  | cons entry rest ih =>
      rw [List.cons_append]
      rw [defineAll] at made ⊢
      cases defined : map.define settings origin entry with
      | error fault =>
          rw [defined] at made
          cases made
      | ok next =>
          rw [defined] at made
          exact ih made

theorem defineAll_append_eq_ok_iff {first second : List Variable}
    (valid : ∀ entry ∈ first, Value.isValid entry.value = true) :
    map.defineAll settings origin (first ++ second) = ⟨after, none⟩ ↔
      ∃ next, map.defineAll settings origin first = ⟨next, none⟩ ∧
        next.defineAll settings origin second = ⟨after, none⟩ := by
  induction first generalizing map with
  | nil => simp [defineAll]
  | cons entry rest ih =>
      obtain ⟨own, others⟩ := List.forall_mem_cons.mp valid
      simp only [List.cons_append, defineAll_cons_eq_ok_iff own, ih others, and_assoc,
        exists_and_left]

theorem addSource_eq_ok_iff {source : Source} :
    map.addSource settings tree source = ⟨after, none⟩ ↔
      ∃ listed, source.definitions tree settings.allowBlankLines = .ok listed ∧
        map.defineAll settings source.origin listed = ⟨after, none⟩ := by
  unfold addSource
  cases source.definitions tree settings.allowBlankLines with
  | error fault => simp
  | ok listed => simp

theorem addSource_eq_ok_iff_of_origin {source : Source} (other : Text) :
    map.addSource settings tree source = ⟨after, none⟩ ↔
      ∃ listed, source.definitions tree settings.allowBlankLines = .ok listed ∧
        map.defineAll settings other listed = ⟨after, none⟩ := by
  rw [addSource_eq_ok_iff]
  apply exists_congr
  intro listed
  apply and_congr_right
  intro read
  exact defineAll_eq_ok_iff_of_origin (Source.isValid_value_of_definitions read) other

theorem addSources_cons_eq_ok_iff {source : Source} {rest : List Source} :
    map.addSources settings tree (source :: rest) = ⟨after, none⟩ ↔
      ∃ next, map.addSource settings tree source = ⟨next, none⟩ ∧
        next.addSources settings tree rest = ⟨after, none⟩ := by
  rw [addSources]
  obtain ⟨next, fault⟩ := map.addSource settings tree source
  cases fault with
  | none => simp
  | some fault => simp

/-- Sources are merged as all their definitions, one after the other. -/
theorem addSources_eq_ok_iff {sources : List Source} :
    map.addSources settings tree sources = ⟨after, none⟩ ↔
      ∃ listed, Source.allDefinitions tree settings.allowBlankLines sources = .ok listed ∧
        map.defineAll settings [] listed = ⟨after, none⟩ := by
  induction sources generalizing map with
  | nil => simp [addSources, defineAll]
  | cons source rest ih =>
      rw [addSources_cons_eq_ok_iff]
      constructor
      · rintro ⟨next, added, later⟩
        obtain ⟨own, read, defined⟩ := (addSource_eq_ok_iff_of_origin []).mp added
        obtain ⟨others, othersRead, othersDefined⟩ := ih.mp later
        have valid := Source.isValid_value_of_definitions read
        exact ⟨own ++ others,
          Source.allDefinitions_cons_eq_ok_iff.mpr ⟨own, others, read, othersRead, rfl⟩,
          (defineAll_append_eq_ok_iff valid).mpr ⟨next, defined, othersDefined⟩⟩
      · rintro ⟨listed, allRead, allDefined⟩
        obtain ⟨own, others, read, othersRead, joined⟩ :=
          Source.allDefinitions_cons_eq_ok_iff.mp allRead
        have valid := Source.isValid_value_of_definitions read
        rw [← joined, defineAll_append_eq_ok_iff valid] at allDefined
        obtain ⟨next, defined, othersDefined⟩ := allDefined
        exact ⟨next, (addSource_eq_ok_iff_of_origin []).mpr ⟨own, read, defined⟩,
          ih.mpr ⟨others, othersRead, othersDefined⟩⟩

theorem addSources_append_eq_ok_iff {first second : List Source} :
    map.addSources settings tree (first ++ second) = ⟨after, none⟩ ↔
      ∃ next, map.addSources settings tree first = ⟨next, none⟩ ∧
        next.addSources settings tree second = ⟨after, none⟩ := by
  induction first generalizing map with
  | nil => simp [addSources]
  | cons source rest ih =>
      rw [List.cons_append, addSources_cons_eq_ok_iff]
      constructor
      · rintro ⟨merged, added, later⟩
        obtain ⟨next, others, last⟩ := ih.mp later
        exact ⟨next, addSources_cons_eq_ok_iff.mpr ⟨merged, added, others⟩, last⟩
      · rintro ⟨next, both, last⟩
        obtain ⟨merged, added, others⟩ := addSources_cons_eq_ok_iff.mp both
        exact ⟨merged, added, ih.mpr ⟨next, others, last⟩⟩

theorem ofSources_eq_ok_iff {sources : List Source} :
    ofSources settings tree sources = .ok map ↔
      addSources settings tree .empty sources = ⟨map, none⟩ := by
  rw [ofSources]
  obtain ⟨merged, fault⟩ := addSources settings tree .empty sources
  cases fault with
  | none => simp
  | some fault => simp

end VariableMap

end Dotenv
