import Dotenv.Merge
import Dotenv.Proofs.DefinitionLines
import Dotenv.Proofs.Resolution

/-!
# Strict references in values

A value pairs each backslash with the character after it, from left to right; the
search for stray dollar signs looks back at the backslashes before each dollar
sign.  After every item of a value the number of those backslashes is even, so the
two readings agree, no value has a stray dollar sign, and a merge gives the same
result whether references are strict or not.
-/

namespace Dotenv

namespace Escape

@[simp]
theorem followsReversed_cons_backslash (reversed : Text) :
    followsReversed ('\\' :: reversed) = !followsReversed reversed := by
  simp only [followsReversed, List.takeWhile_cons, beq_self_eq_true, if_true,
    List.length_cons]
  rcases Nat.mod_two_eq_zero_or_one
    (List.takeWhile (· == '\\') reversed).length with even | odd
  · simp [Nat.add_mod, even]
  · simp [Nat.add_mod, odd]

theorem followsReversed_cons_of_ne {character : Char} (other : character ≠ '\\')
    (reversed : Text) : followsReversed (character :: reversed) = false := by
  simp [followsReversed, other]

theorem strayFrom_of_no_dollar {text : Text} (absent : '$' ∉ text) (reversed : Text) :
    strayFrom reversed text = none := by
  induction text generalizing reversed with
  | nil => rfl
  | cons first rest ih =>
      simp only [List.mem_cons, not_or] at absent
      have other : (first == '$') = false := by simpa using Ne.symm absent.1
      rw [strayFrom, other]
      exact ih absent.2 _

theorem strayFrom_cons_of_reference {rest : Text}
    (begin : Reference.begins ('$' :: rest) = true) (reversed : Text) :
    strayFrom reversed ('$' :: rest) = strayFrom ('$' :: reversed) rest := by
  simp [strayFrom, begin]

theorem strayFrom_cons_of_escaped {first : Char} {reversed : Text}
    (escaped : followsReversed reversed = true) (rest : Text) :
    strayFrom reversed (first :: rest) = strayFrom (first :: reversed) rest := by
  simp [strayFrom, escaped]

theorem strayFrom_cons_of_ne {first : Char} (other : first ≠ '$') (reversed rest : Text) :
    strayFrom reversed (first :: rest) = strayFrom (first :: reversed) rest := by
  simp [strayFrom, other]

theorem followsReversed_cons_pair {reversed : Text} (even : followsReversed reversed = false)
    (escaped : Char) : followsReversed (escaped :: '\\' :: reversed) = false := by
  by_cases backslash : escaped = '\\'
  · simp [backslash, even]
  · exact followsReversed_cons_of_ne backslash _

/-- After an even number of backslashes the search passes over a backslash with the
character after it. -/
theorem strayFrom_cons_pair {reversed : Text} (even : followsReversed reversed = false)
    (escaped : Char) (rest : Text) :
    strayFrom reversed ('\\' :: escaped :: rest) =
      strayFrom (escaped :: '\\' :: reversed) rest := by
  have odd : followsReversed ('\\' :: reversed) = true := by simp [even]
  rw [strayFrom_cons_of_ne (by decide), strayFrom_cons_of_escaped odd]

/-- After an even number of backslashes the inside of a value has no stray dollar
sign, whatever without dollar signs stands after it. -/
theorem strayFrom_append_of_isInner {loneBackslash : Bool} {text reversed tail : Text}
    (inner : Value.isInner loneBackslash text = true)
    (even : followsReversed reversed = false) (noDollar : '$' ∉ tail) :
    strayFrom reversed (text ++ tail) = none := by
  -- each step of the grammar leaves an even run of backslashes behind it
  fun_induction Value.isInner loneBackslash text generalizing reversed with
  | case1 => exact strayFrom_of_no_dollar noDollar reversed
  | case2 =>
      rw [List.cons_append, strayFrom_cons_of_ne (by decide)]
      exact strayFrom_of_no_dollar noDollar _
  | case3 escaped rest ih =>
      rw [Bool.and_eq_true] at inner
      rw [List.cons_append, List.cons_append, strayFrom_cons_pair even]
      exact ih inner.2 (followsReversed_cons_pair even escaped)
  | case4 rest ih =>
      rw [Bool.and_eq_true] at inner
      have begin := Reference.begins_append inner.1 tail
      rw [List.cons_append] at begin ⊢
      rw [strayFrom_cons_of_reference begin]
      exact ih inner.2 (followsReversed_cons_of_ne (by decide) _)
  | case5 first rest notLast notEscape notDollar ih =>
      rw [Bool.and_eq_true] at inner
      have other : first ≠ '$' := fun equal => notDollar equal
      have visible := Value.ne_backslash notLast notEscape
      rw [List.cons_append, strayFrom_cons_of_ne other]
      exact ih inner.2 (followsReversed_cons_of_ne visible _)

/-- A value has no stray dollar sign. -/
theorem stray?_of_isValid {value : Text} (valid : Value.isValid value = true) :
    stray? value = none := by
  rcases Bool.or_eq_true_iff.mp valid with inner | quoted
  · rw [stray?, ← List.append_nil value]
    exact strayFrom_append_of_isInner inner rfl (by simp)
  · obtain ⟨inside, equal, inner⟩ := Value.exists_of_isQuoted quoted
    rw [equal, stray?, List.cons_append, strayFrom_cons_of_ne (by decide)]
    exact strayFrom_append_of_isInner inner (followsReversed_cons_of_ne (by decide) _)
      (by decide)

end Escape

/-- Under either setting a value is expanded, and only absent names can fail it. -/
theorem Value.isClean_of_isValid {value : Text} (valid : isValid value = true)
    (strict : Bool) : value.IsClean strict :=
  fun _ => Escape.stray?_of_isValid valid

namespace VariableMap

theorem define_of_isClean {settings : Settings} {entry : Variable}
    (clean : entry.value.IsClean settings.strictReferences) (origin : Text)
    (map : VariableMap) :
    map.define settings origin entry =
      if (entry.value.expand map).missing = [] then
        .ok (map.insert entry.name (entry.value.expand map).text)
      else
        .error (.undefinedReference (some entry.name) origin
          (entry.value.expand map).missing) := by
  rw [define, Text.resolve_of_isClean clean]
  split <;> rfl

/-- A clean first value either is defined and the others follow, or its absent names end
the merge. -/
theorem defineAll_cons_of_isClean {settings : Settings} {entry : Variable}
    (clean : entry.value.IsClean settings.strictReferences) (origin : Text)
    (map : VariableMap) (rest : List Variable) :
    map.defineAll settings origin (entry :: rest) =
      if (entry.value.expand map).missing = [] then
        defineAll settings origin
          (map.insert entry.name (entry.value.expand map).text) rest
      else
        ⟨map, some (.undefinedReference (some entry.name) origin
          (entry.value.expand map).missing)⟩ := by
  rw [defineAll, define_of_isClean clean]
  by_cases resolved : (entry.value.expand map).missing = []
  · simp only [if_pos resolved]
  · simp only [if_neg resolved]

variable (allowBlank : Bool) (origin : Text)

theorem define_strict (map : VariableMap) {entry : Variable}
    (valid : Value.isValid entry.value = true) :
    map.define ⟨allowBlank, true⟩ origin entry =
      map.define ⟨allowBlank, false⟩ origin entry := by
  rw [define_of_isClean (Value.isClean_of_isValid valid _),
    define_of_isClean (Value.isClean_of_isValid valid _)]

theorem defineAll_strict (map : VariableMap) {listed : List Variable}
    (valid : ∀ entry ∈ listed, Value.isValid entry.value = true) :
    map.defineAll ⟨allowBlank, true⟩ origin listed =
      map.defineAll ⟨allowBlank, false⟩ origin listed := by
  induction listed generalizing map with
  | nil => rfl
  | cons entry rest ih =>
      obtain ⟨own, others⟩ := List.forall_mem_cons.mp valid
      rw [defineAll, defineAll, define_strict allowBlank origin map own]
      split
      · exact ih _ others
      · rfl

theorem addSource_strict (tree : FileTree) (map : VariableMap) (source : Source) :
    map.addSource ⟨allowBlank, true⟩ tree source =
      map.addSource ⟨allowBlank, false⟩ tree source := by
  unfold addSource
  cases read : source.definitions tree allowBlank with
  | error fault => rfl
  | ok listed =>
      exact defineAll_strict allowBlank source.origin map
        (Source.isValid_value_of_definitions read)

theorem addSources_strict (tree : FileTree) (map : VariableMap) (sources : List Source) :
    map.addSources ⟨allowBlank, true⟩ tree sources =
      map.addSources ⟨allowBlank, false⟩ tree sources := by
  induction sources generalizing map with
  | nil => rfl
  | cons source rest ih =>
      simp only [addSources, addSource_strict]
      split
      · exact ih _
      · rfl

/-- The value of a line passes the check for stray dollar signs, so that a merge of
sources comes to the same whether references are strict or not. -/
theorem strict_references_change_nothing :
    (∀ allowBlank line entry, Line.classify allowBlank line = .definition entry →
      entry.value.checkReferences = .ok ()) ∧
    ∀ allowBlank tree sources,
      ofSources ⟨allowBlank, true⟩ tree sources =
        ofSources ⟨allowBlank, false⟩ tree sources := by
  constructor
  · intro allowBlank line entry classified
    have valid := (Line.of_classify classified).2.1
    rw [Text.checkReferences, Escape.stray?_of_isValid valid]
  · intro allowBlank tree sources
    rw [ofSources, ofSources, addSources_strict]

end VariableMap

end Dotenv
