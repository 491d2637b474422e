import Dotenv.Proofs.MergeSteps
import Dotenv.Proofs.Pieces

/-!
# Independent sources

Two sources of which neither defines what the other defines or refers to can be merged in
either order.  Neighbouring definitions of them change places: each is expanded to the same
value before and after the other, and both bind their own names.  So one definition moves
past all of the other source, and one source past the other.
-/

namespace Dotenv

/-- Neither variable has the name of the other or refers to it. -/
structure Variable.Independent (first second : Variable) : Prop where
  distinct : first.name ≠ second.name
  unreferenced : first.name ∉ second.value.referencedNames
  notReferring : second.name ∉ first.value.referencedNames

theorem Variable.Independent.symm {first second : Variable}
    (independent : first.Independent second) : second.Independent first :=
  ⟨independent.distinct.symm, independent.notReferring, independent.unreferenced⟩

/-- Whatever definitions two sources have, those of the one are independent of those of the
other. -/
def Source.Independent (tree : FileTree) (allowBlank : Bool) (first second : Source) : Prop :=
  ∀ listed others, first.definitions tree allowBlank = .ok listed →
    second.definitions tree allowBlank = .ok others →
    ∀ entry ∈ listed, ∀ other ∈ others, entry.Independent other

theorem Source.Independent.symm {tree : FileTree} {allowBlank : Bool} {first second : Source}
    (independent : first.Independent tree allowBlank second) :
    second.Independent tree allowBlank first := by
  intro others listed read otherRead other member entry otherMember
  exact (independent listed others otherRead read entry otherMember other member).symm

namespace VariableMap

theorem expand_insert {name : Text} {text : Text} (absent : name ∉ text.referencedNames)
    (map : VariableMap) (value : Text) : text.expand (map.insert name value) = text.expand map := by
  apply Text.expand_congr
  intro other referenced
  have different : other ≠ name := fun equal => absent (equal ▸ referenced)
  rw [SortedMap.get?_insert, if_neg different]

variable {settings : Settings} {origin : Text} {map after : VariableMap}

theorem defineAll_swap {first second : Variable} (independent : first.Independent second)
    (firstValid : Value.isValid first.value = true)
    (secondValid : Value.isValid second.value = true) (rest : List Variable) :
    map.defineAll settings origin (first :: second :: rest) = ⟨after, none⟩ ↔
      map.defineAll settings origin (second :: first :: rest) = ⟨after, none⟩ := by
  rw [defineAll_cons_eq_ok_iff firstValid, defineAll_cons_eq_ok_iff secondValid,
    defineAll_cons_eq_ok_iff secondValid, defineAll_cons_eq_ok_iff firstValid,
    expand_insert independent.unreferenced, expand_insert independent.notReferring,
    SortedMap.insert_comm _ independent.distinct, and_left_comm]

/-- A definition moves past others that are independent of it. -/
theorem defineAll_middle {listed : List Variable} {entry : Variable}
    (independent : ∀ other ∈ listed, other.Independent entry)
    (valid : ∀ other ∈ listed, Value.isValid other.value = true)
    (own : Value.isValid entry.value = true) (rest : List Variable) :
    map.defineAll settings origin (listed ++ entry :: rest) = ⟨after, none⟩ ↔
      map.defineAll settings origin (entry :: (listed ++ rest)) = ⟨after, none⟩ := by
  induction listed generalizing map with
  | nil => exact Iff.rfl
  | cons first listed ih =>
      obtain ⟨firstIndependent, others⟩ := List.forall_mem_cons.mp independent
      obtain ⟨firstValid, othersValid⟩ := List.forall_mem_cons.mp valid
      rw [List.cons_append, List.cons_append, defineAll_cons_eq_ok_iff firstValid,
        ih others othersValid, ← defineAll_cons_eq_ok_iff firstValid,
        defineAll_swap firstIndependent firstValid own]

theorem defineAll_append_comm {first second : List Variable}
    (independent : ∀ entry ∈ first, ∀ other ∈ second, entry.Independent other)
    (firstValid : ∀ entry ∈ first, Value.isValid entry.value = true)
    (secondValid : ∀ entry ∈ second, Value.isValid entry.value = true) :
    map.defineAll settings origin (first ++ second) = ⟨after, none⟩ ↔
      map.defineAll settings origin (second ++ first) = ⟨after, none⟩ := by
  induction second generalizing map with
  | nil => rw [List.append_nil, List.nil_append]
  | cons entry second ih =>
      obtain ⟨own, others⟩ := List.forall_mem_cons.mp secondValid
      have fromFirst : ∀ other ∈ first, other.Independent entry :=
        fun other member => independent other member entry List.mem_cons_self
      have fromRest : ∀ other ∈ first, ∀ later ∈ second, other.Independent later :=
        fun other member later laterMember =>
          independent other member later (List.mem_cons_of_mem entry laterMember)
      rw [defineAll_middle fromFirst firstValid own, List.cons_append,
        defineAll_cons_eq_ok_iff own, ih fromRest others, ← defineAll_cons_eq_ok_iff own]

variable {tree : FileTree}

/-- Two sources are merged as the definitions of both, one after the other. -/
theorem addSources_pair_eq_ok_iff {first second : Source} :
    map.addSources settings tree [first, second] = ⟨after, none⟩ ↔
      ∃ listed others, first.definitions tree settings.allowBlankLines = .ok listed ∧
        second.definitions tree settings.allowBlankLines = .ok others ∧
        map.defineAll settings [] (listed ++ others) = ⟨after, none⟩ := by
  simp [addSources_eq_ok_iff, Source.allDefinitions_cons_eq_ok_iff]

theorem addSources_comm {first second : Source}
    (independent : first.Independent tree settings.allowBlankLines second) :
    map.addSources settings tree [first, second] = ⟨after, none⟩ ↔
      map.addSources settings tree [second, first] = ⟨after, none⟩ := by
  rw [addSources_pair_eq_ok_iff, addSources_pair_eq_ok_iff, exists_comm]
  apply exists_congr
  intro others
  apply exists_congr
  intro listed
  rw [and_left_comm]
  apply and_congr_right
  intro otherRead
  apply and_congr_right
  intro read
  exact defineAll_append_comm (independent listed others read otherRead)
    (Source.isValid_value_of_definitions read) (Source.isValid_value_of_definitions otherRead)

/-- Neighbouring sources that are independent of each other can change places among any
others: the merge succeeds with a map in the one order exactly when it does in the other. -/
theorem ofSources_comm (before : List Source) {first second : Source} (rest : List Source)
    (independent : first.Independent tree settings.allowBlankLines second) :
    ofSources settings tree (before ++ [first, second] ++ rest) = .ok map ↔
      ofSources settings tree (before ++ [second, first] ++ rest) = .ok map := by
  simp only [ofSources_eq_ok_iff, addSources_append_eq_ok_iff, addSources_comm independent]

/-- Two sources that both refer to an earlier one, and of which one redefines a name of it. -/
theorem ofSources_comm_redefining :
    let before : List Source := [.text "base".toList "A=1\nB=0\n".toList]
    let first : Source := .text "first".toList "B=$A\nB=\"$\x7bB\x7dx\"\n".toList
    let second : Source := .text "second".toList "# $B\nD=$A\nC=$D$D\nD=y\n".toList
    let rest : List Source := [.text "rest".toList "E=$B$C$D\n".toList]
    let map : VariableMap := .ofVariables
      [⟨"A".toList, "1".toList⟩, ⟨"B".toList, "\"1x\"".toList⟩, ⟨"C".toList, "11".toList⟩,
        ⟨"D".toList, "y".toList⟩, ⟨"E".toList, "1x11y".toList⟩]
    first.Independent .empty false second ∧
      ofSources ⟨false, false⟩ .empty (before ++ [first, second] ++ rest) = .ok map ∧
      ofSources ⟨false, false⟩ .empty (before ++ [second, first] ++ rest) = .ok map := by
  intro before first second rest map
  have independent : first.Independent .empty false second := by
    intro listed others read otherRead
    have own : listed = [⟨"B".toList, "$A".toList⟩, ⟨"B".toList, "\"$\x7bB\x7dx\"".toList⟩] := by
      apply Except.ok.inj
      rw [← read]
      decide +kernel
    have otherOwn : others = [⟨"D".toList, "$A".toList⟩, ⟨"C".toList, "$D$D".toList⟩,
        ⟨"D".toList, "y".toList⟩] := by
      apply Except.ok.inj
      rw [← otherRead]
      decide +kernel
    have apart : ∀ entry ∈ listed, ∀ other ∈ others, entry.name ≠ other.name ∧
        entry.name ∉ other.value.referencedNames ∧
        other.name ∉ entry.value.referencedNames := by
      subst own otherOwn
      decide +kernel
    intro entry member other otherMember
    obtain ⟨distinct, unreferenced, notReferring⟩ := apart entry member other otherMember
    exact ⟨distinct, unreferenced, notReferring⟩
  have merged : ofSources ⟨false, false⟩ .empty (before ++ [first, second] ++ rest) =
      .ok map := by decide +kernel
  exact ⟨independent, merged, (ofSources_comm before rest independent).mp merged⟩

end VariableMap

end Dotenv
