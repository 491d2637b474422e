import Dotenv.Proofs.GuardedDollars
import Dotenv.Proofs.MergedMap

/-!
# Layers of quotes

A value has one layer of quotes at most, and expansion adds none: inside a value a double
quote stands behind a backslash, and what is put in place of a reference has lost its
quotes already.  So quotes are off after they were taken off once, wherever a value goes.
-/

namespace Dotenv

namespace Text

/-- No double quote stands at the start. -/
def IsUnwrapped (text : Text) : Prop := text.head? ≠ some '"'

theorem IsUnwrapped.append {first second : Text} (firstUnwrapped : first.IsUnwrapped)
    (secondUnwrapped : second.IsUnwrapped) : IsUnwrapped (first ++ second) := by
  cases first with
  | nil => exact secondUnwrapped
  | cons character first => exact firstUnwrapped

theorem IsUnwrapped.unquoted_eq {text : Text} (unwrapped : text.IsUnwrapped) :
    text.unquoted = text := by
  unfold unquoted
  split
  · exact absurd rfl unwrapped
  · rfl

theorem expand_quoted (map : VariableMap) (text : Text) :
    expand map text.quoted = ⟨(expand map text).text.quoted, (expand map text).missing⟩ := by
  have closing : expand map ['"'] = ⟨['"'], []⟩ := by
    rw [expand_cons_of_ne_dollar (by decide), expand_nil]
  rw [quoted, List.cons_append, expand_cons_of_ne_dollar (by decide),
    expand_append_barrier Reference.isBarrier_quote, closing, List.append_nil]
  rfl

/-- A reference on its own expands to the value of its name without its quotes. -/
theorem expand_reference {map : VariableMap} {name value : Text}
    (valid : Name.isValid name = true) (found : map.get? name = some value) (braced : Bool) :
    expand map (Reference.text ⟨name, braced⟩) = ⟨value.unquoted, []⟩ := by
  have stands : Reference.StandsBefore ⟨name, braced⟩ [] := by
    refine ⟨valid, fun _ character member => ?_⟩
    cases member
  have next := Reference.next?_text_append stands
  rw [List.append_nil] at next
  have known : map.contains name = true := by
    rw [SortedMap.contains, found]
    rfl
  simp [expand, pieces_of_next? next, Piece.expanded, Piece.missing?, found, known]

end Text

theorem Value.ne_quote_of_isInner {loneBackslash : Bool} {first : Char} {rest : Text}
    (inner : isInner loneBackslash (first :: rest) = true) : first ≠ '"' := by
  intro quote
  subst quote
  simp [isInner] at inner

theorem Value.spelled_reference {name : Text} (valid : Name.isValid name = true)
    (braced : Bool) : Spelled (Reference.text ⟨name, braced⟩) := by
  have inside : Inner (Reference.text ⟨name, braced⟩ ++ []) := .reference valid .nil
  rw [List.append_nil] at inside
  exact .bare inside

/-- A valid name and a value make up a line that defines them. -/
theorem Line.classify_plain (allowBlank : Bool) {name value : Text}
    (valid : Name.isValid name = true) (isValue : Value.Spelled value)
    (visible : ∀ first ∈ value.head?, Text.isBlank first = false) :
    classify allowBlank (name ++ '=' :: value) = .definition ⟨name, value⟩ := by
  have noBlanks : ∀ character ∈ ([] : Text), Text.isBlank character = true := by simp
  apply classify_eq_definition_iff_defines.mpr
  exact .spelled noBlanks (.inl rfl) noBlanks valid noBlanks noBlanks isValue visible

namespace VariableMap

/-- Without one layer of quotes no value starts with a quote. -/
def IsOnceQuoted (map : VariableMap) : Prop :=
  ∀ name value, map.get? name = some value → value.unquoted.IsUnwrapped

variable {map : VariableMap}

theorem IsOnceQuoted.expand_of_isInner (once : map.IsOnceQuoted) {loneBackslash : Bool}
    {text : Text} (inner : Value.isInner loneBackslash text = true)
    (resolved : (text.expand map).missing = []) :
    (text.expand map).text.IsUnwrapped := by
  -- references at the start may expand to nothing, so the first character can come from
  -- any of the pieces
  fun_induction Text.pieces text with
  | case1 =>
      rw [Text.expand_nil]
      intro starts
      cases starts
  | case2 first rest reference after found ih =>
      obtain ⟨present, later⟩ := Text.missing_of_next? found map resolved
      obtain ⟨value, known, replaced⟩ := Piece.exists_value_of_missing?_eq_none present
      have dollar : first = '$' := by
        by_contra other
        rw [Reference.next?_of_ne_dollar other] at found
        cases found
      subst dollar
      rw [Value.isInner, Bool.and_eq_true] at inner
      rw [Text.expand_of_next? found, replaced]
      apply (once _ _ known).append
      exact ih (Value.isInner_of_next? inner.2 found) later
  | case3 first rest absent ih =>
      rw [Text.expand_cons_of_not_next? absent]
      intro starts
      exact Value.ne_quote_of_isInner inner (Option.some.inj starts)

theorem IsOnceQuoted.expand_of_isValid (once : map.IsOnceQuoted) {text : Text}
    (valid : Value.isValid text = true) (resolved : (text.expand map).missing = []) :
    (text.expand map).text.unquoted.IsUnwrapped := by
  rcases Bool.or_eq_true_iff.mp valid with inner | quoted
  · have unwrapped := once.expand_of_isInner inner resolved
    rw [unwrapped.unquoted_eq]
    exact unwrapped
  · obtain ⟨inside, equal, inner⟩ := Value.exists_of_isQuoted quoted
    have wrapped : text = Text.quoted inside := equal
    rw [wrapped, Text.expand_quoted] at resolved ⊢
    rw [Text.unquoted_quoted]
    exact once.expand_of_isInner inner resolved

theorem Reached.isOnceQuoted {settings : Settings} (reached : Reached settings map) :
    map.IsOnceQuoted := by
  refine reached.forall_get? ?_
  intro map entry once _ validValue resolved
  exact IsOnceQuoted.expand_of_isValid once validValue resolved

theorem mem_programEnvironment {name value : Text} (found : map.get? name = some value) :
    (name, value.unquoted) ∈ map.programEnvironment := by
  rw [SortedMap.get?_eq_some_iff] at found
  exact List.mem_map.mpr ⟨(name, value), found, rfl⟩

/-- What a program sees does not change when it is taken for the values themselves. -/
theorem IsOnceQuoted.programEnvironment_ofList (once : map.IsOnceQuoted) :
    programEnvironment (.ofList map.programEnvironment) = map.programEnvironment := by
  have increasing : map.programEnvironment.Pairwise
      fun earlier later => compare earlier.1 later.1 = .lt := by
    rw [programEnvironment, List.pairwise_map]
    exact map.increasing
  have bare : ∀ entry ∈ map.programEnvironment, (entry.1, entry.2.unquoted) = entry := by
    intro entry member
    obtain ⟨⟨name, value⟩, stored, equal⟩ := List.mem_map.mp member
    have unwrapped := once name value (SortedMap.get?_eq_some_iff.mpr stored)
    rw [← equal, unwrapped.unquoted_eq]
  calc programEnvironment (.ofList map.programEnvironment)
    _ = map.programEnvironment.map fun entry => (entry.1, entry.2.unquoted) := by
        rw [programEnvironment, SortedMap.entries_ofList increasing]
    _ = map.programEnvironment := by
        rw [List.map_congr_left bare, List.map_id']

section Copy

variable {settings : Settings} {origin name value : Text}

theorem defineAll_copy (valid : Name.isValid name = true)
    (found : map.get? name = some value) (copy : Text) :
    map.defineAll settings origin [⟨copy, Reference.text ⟨name, true⟩⟩] =
      ⟨map.insert copy value.unquoted, none⟩ := by
  have isValue := Value.isValid_iff.mpr (Value.spelled_reference valid true)
  have expanded := Text.expand_reference valid found true
  rw [defineAll_cons_of_isClean (Value.isClean_of_isValid isValue _), expanded, if_pos rfl]
  rfl

theorem addSource_copy (valid : Name.isValid name = true)
    (found : map.get? name = some value) {copy : Text} (validCopy : Name.isValid copy = true)
    (tree : FileTree) :
    map.addSource settings tree (.text origin (copy ++ '=' :: Reference.text ⟨name, true⟩)) =
      ⟨map.insert copy value.unquoted, none⟩ := by
  have read : Source.definitions tree settings.allowBlankLines
      (.text origin (copy ++ '=' :: Reference.text ⟨name, true⟩)) =
        .ok [⟨copy, Reference.text ⟨name, true⟩⟩] := by
    have isValue := Value.spelled_reference valid true
    have single : '\n' ∉ copy ++ '=' :: Reference.text ⟨name, true⟩ := by
      have inCopy : '\n' ∉ copy := Name.not_mem_of_isValid validCopy rfl
      have inValue := Value.lineFeed_not_mem (Value.isValid_iff.mpr isValue)
      simp [inCopy, inValue]
    have visible : ∀ first ∈ (Reference.text ⟨name, true⟩).head?, Text.isBlank first = false := by
      intro first member
      cases member
      rfl
    have classified := Line.classify_plain settings.allowBlankLines validCopy isValue visible
    exact Definitions.ofStream_encode_of_line single classified origin
  rw [addSource, read]
  exact defineAll_copy valid found copy

end Copy

/-- In a map that merges leave behind quotes come off once: what a program sees of a value
starts with no quote, it is what either form of a reference expands to, a definition by
that reference passes it on, and it is its own value in the environment of a program. -/
theorem Reached.quotes_come_off_once {settings : Settings} (reached : Reached settings map) :
    (∀ name value, map.get? name = some value →
      value.unquoted.head? ≠ some '"' ∧
      value.unquoted.unquoted = value.unquoted ∧
      (name, value.unquoted) ∈ map.programEnvironment ∧
      (∀ braced, Text.expand map (Reference.text ⟨name, braced⟩) = ⟨value.unquoted, []⟩) ∧
      ∀ copy origin, ∃ after : VariableMap,
        (copy, value.unquoted) ∈ after.programEnvironment ∧
        map.defineAll settings origin [⟨copy, Reference.text ⟨name, true⟩⟩] = ⟨after, none⟩ ∧
        (Name.isValid copy = true → ∀ tree, map.addSource settings tree
          (.text origin (copy ++ '=' :: Reference.text ⟨name, true⟩)) = ⟨after, none⟩)) ∧
    programEnvironment (.ofList map.programEnvironment) = map.programEnvironment := by
  have once := reached.isOnceQuoted
  refine ⟨fun name value found => ?_, once.programEnvironment_ofList⟩
  have valid := (reached.isSingleLine name value found).1
  have unwrapped := once name value found
  have same := unwrapped.unquoted_eq
  refine ⟨unwrapped, same, mem_programEnvironment found, ?_, ?_⟩
  · exact fun braced => Text.expand_reference valid found braced
  · intro copy origin
    refine ⟨map.insert copy value.unquoted, ?_, defineAll_copy valid found copy, ?_⟩
    · have stored : (map.insert copy value.unquoted).get? copy = some value.unquoted := by
        rw [SortedMap.get?_insert, if_pos rfl]
      have seen := mem_programEnvironment stored
      rwa [same] at seen
    · exact fun validCopy tree => addSource_copy valid found validCopy tree

/-- A merge that failed leaves a value between quotes that starts with an escaped one. -/
theorem quotes_come_off_after_fault :
    let merged := addSource ⟨false, false⟩ .empty .empty
      (.text [] "A=\\\"a\nB=\"$A\\\"\"\nC=$D\n".toList)
    Reached ⟨false, false⟩ merged.map ∧ merged.fault.isSome = true ∧
      merged.map.get? "B".toList = some "\"\\\"a\\\"\"".toList ∧
      Text.expand merged.map "$B".toList = ⟨"\\\"a\\\"".toList, []⟩ ∧
      programEnvironment (.ofList merged.map.programEnvironment) =
        merged.map.programEnvironment := by
  intro merged
  have reached : Reached ⟨false, false⟩ merged.map := .addSource .empty .empty _
  have found : merged.map.get? "B".toList = some "\"\\\"a\\\"\"".toList := by decide +kernel
  obtain ⟨values, environment⟩ := reached.quotes_come_off_once
  obtain ⟨-, -, -, expanded, -⟩ := values _ _ found
  exact ⟨reached, by decide +kernel, found, expanded false, environment⟩

end VariableMap

end Dotenv
