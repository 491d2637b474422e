import Dotenv.Expansion
import Dotenv.Proofs.References

/-!
# Pieces of a text

The pieces of a text can be found in its parts: no reference reaches over a
character that stands in none.  A text without references consists of its
characters, and no expansion changes it.
-/

namespace Dotenv

theorem Piece.filterMap_missing? (map : VariableMap) (pieces : List Piece) :
    pieces.filterMap (missing? map) =
      ((pieces.filterMap reference?).map Reference.name).filter
        fun name => !map.contains name := by
  induction pieces with
  | nil => rfl
  | cons piece rest ih =>
      cases piece with
      | literal character =>
          rw [List.filterMap_cons_none rfl, List.filterMap_cons_none rfl, ih]
      | token reference =>
          cases known : map.contains reference.name with
          | true => simpa [missing?, reference?, known] using ih
          | false => simpa [missing?, reference?, known] using ih

theorem Piece.exists_value_of_missing?_eq_none {map : VariableMap} {reference : Reference}
    (present : missing? map (.token reference) = none) :
    ∃ value, map.get? reference.name = some value ∧
      expanded map (.token reference) = value.unquoted := by
  cases found : map.get? reference.name with
  | some value => exact ⟨value, rfl, by simp only [expanded, found]⟩
  | none => simp [missing?, SortedMap.contains, found] at present

/-- The names that a text refers to, one for each reference. -/
def Text.referencedNames (text : Text) : List Text :=
  text.references.map Reference.name

theorem Text.expand_missing (map : VariableMap) (text : Text) :
    (text.expand map).missing =
      text.referencedNames.filter fun name => !map.contains name :=
  Piece.filterMap_missing? map text.pieces

namespace Text

theorem expand_missing_eq_nil_iff {map : VariableMap} {text : Text} :
    (text.expand map).missing = [] ↔
      ∀ name ∈ text.referencedNames, map.contains name = true := by
  rw [expand_missing, List.filter_eq_nil_iff]
  simp

theorem mem_referencedNames {text : Text} {reference : Reference}
    (member : .token reference ∈ text.pieces) : reference.name ∈ text.referencedNames := by
  apply List.mem_map_of_mem
  exact List.mem_filterMap.mpr ⟨_, member, rfl⟩

/-- Maps that bind the names in a text alike expand it alike. -/
theorem expand_congr {first second : VariableMap} {text : Text}
    (agree : ∀ name ∈ text.referencedNames, first.get? name = second.get? name) :
    text.expand first = text.expand second := by
  have alike : ∀ piece ∈ text.pieces,
      piece.expanded first = piece.expanded second ∧
        piece.missing? first = piece.missing? second := by
    intro piece member
    cases piece with
    | literal character => exact ⟨rfl, rfl⟩
    | token reference =>
        have same := agree reference.name (mem_referencedNames member)
        constructor
        · rw [Piece.expanded, Piece.expanded, same]
        · rw [Piece.missing?, Piece.missing?, SortedMap.contains, SortedMap.contains, same]
  rw [expand, expand, List.flatMap_congr fun piece member => (alike piece member).1,
    List.filterMap_congr fun piece member => (alike piece member).2]

theorem pieces_append_barrier {barrier : Char} (isBarrier : Reference.IsBarrier barrier)
    (text rest : Text) :
    pieces (text ++ barrier :: rest) = pieces text ++ pieces (barrier :: rest) := by
  fun_induction pieces text with
  | case1 => rfl
  | case2 first later reference after found ih =>
      have whole := Reference.next?_append_barrier isBarrier (List.cons_ne_nil first later) rest
      rw [found, Option.map_some] at whole
      rw [pieces_of_next? whole, ih, List.cons_append]
  | case3 first later absent ih =>
      have whole := Reference.next?_append_barrier isBarrier (List.cons_ne_nil first later) rest
      rw [absent, Option.map_none, List.cons_append] at whole
      rw [List.cons_append, pieces_of_not_next? whole, ih, List.cons_append]

theorem pieces_cons_of_ne_dollar {first : Char} (other : first ≠ '$') (rest : Text) :
    pieces (first :: rest) = .literal first :: pieces rest :=
  pieces_of_not_next? (Reference.next?_of_ne_dollar other rest)

@[simp]
theorem expand_nil (map : VariableMap) : expand map [] = ⟨[], []⟩ := by
  simp [expand]

theorem expand_of_next? {text after : Text} {reference : Reference}
    (found : Reference.next? text = some (reference, after)) (map : VariableMap) :
    (expand map text).text =
      Piece.expanded map (.token reference) ++ (expand map after).text := by
  rw [expand, pieces_of_next? found, List.flatMap_cons]
  rfl

theorem expand_cons_of_not_next? {first : Char} {rest : Text}
    (absent : Reference.next? (first :: rest) = none) (map : VariableMap) :
    expand map (first :: rest) =
      ⟨first :: (expand map rest).text, (expand map rest).missing⟩ := by
  rw [expand, pieces_of_not_next? absent]
  rfl

theorem expand_cons_of_ne_dollar {first : Char} (other : first ≠ '$') (rest : Text)
    (map : VariableMap) :
    expand map (first :: rest) =
      ⟨first :: (expand map rest).text, (expand map rest).missing⟩ :=
  expand_cons_of_not_next? (Reference.next?_of_ne_dollar other rest) map

theorem expand_append_barrier {barrier : Char} (isBarrier : Reference.IsBarrier barrier)
    (text rest : Text) (map : VariableMap) :
    expand map (text ++ barrier :: rest) =
      ⟨(expand map text).text ++ (expand map (barrier :: rest)).text,
        (expand map text).missing ++ (expand map (barrier :: rest)).missing⟩ := by
  simp only [expand, pieces_append_barrier isBarrier, List.flatMap_append,
    List.filterMap_append]

theorem references_of_next? {text after : Text} {reference : Reference}
    (found : Reference.next? text = some (reference, after)) :
    references text = reference :: references after := by
  rw [references, pieces_of_next? found]
  rfl

theorem references_cons_of_not_next? {first : Char} {rest : Text}
    (absent : Reference.next? (first :: rest) = none) :
    references (first :: rest) = references rest := by
  rw [references, pieces_of_not_next? absent]
  rfl

theorem expand_of_references_eq_nil {text : Text} (none : references text = [])
    (map : VariableMap) : expand map text = ⟨text, []⟩ := by
  fun_induction pieces text with
  | case1 => exact expand_nil map
  | case2 first rest reference after found ih =>
      rw [references_of_next? found] at none
      cases none
  | case3 first rest absent ih =>
      rw [references_cons_of_not_next? absent] at none
      rw [expand_cons_of_not_next? absent, ih none]

/-- A reference is written somewhere in a text. -/
def HasReference (text : Text) : Prop :=
  ∃ (before : Text) (reference : Reference) (after : Text),
    Name.isValid reference.name = true ∧ text = before ++ (reference.text ++ after)

theorem not_hasReference_nil : ¬ HasReference [] := by
  rintro ⟨before, reference, after, -, equal⟩
  have positive := reference.length_pos
  simp only [List.nil_eq, List.append_eq_nil_iff] at equal
  simp [equal] at positive

theorem hasReference_cons_iff {first : Char} {rest : Text} :
    HasReference (first :: rest) ↔
      Reference.begins (first :: rest) = true ∨ rest.HasReference := by
  constructor
  · rintro ⟨before, reference, after, valid, equal⟩
    cases before with
    | nil =>
        left
        rw [equal]
        exact Reference.begins_text_append valid after
    | cons character before =>
        exact .inr ⟨before, reference, after, valid, (List.cons.inj equal).2⟩
  · rintro (begins | ⟨before, reference, after, valid, equal⟩)
    · obtain ⟨⟨reference, after⟩, found⟩ := Option.isSome_iff_exists.mp begins
      exact ⟨[], reference, after, Reference.isValid_of_next? found,
        (Reference.append_of_next? found).symm⟩
    · exact ⟨first :: before, reference, after, valid, by rw [equal, List.cons_append]⟩

/-- No reference is read from a text exactly when none is written in it. -/
theorem references_eq_nil_iff {text : Text} : text.references = [] ↔ ¬ text.HasReference := by
  fun_induction pieces text with
  | case1 => simp [references, not_hasReference_nil]
  | case2 first rest reference after found ih =>
      simp [references_of_next? found, hasReference_cons_iff, Reference.begins, found]
  | case3 first rest missing ih =>
      simpa [references_cons_of_not_next? missing, hasReference_cons_iff, Reference.begins,
        missing] using ih

end Text

end Dotenv
