import Dotenv.Proofs.Pieces

/-!
# Expansions that are settled

An expansion may leave dollar signs: those of the text that begin no reference, those of
absent references, and those of the values.  Where it leaves none it is settled, since no
reference stands in a text without dollar signs, however its parts came together.
-/

namespace Dotenv

namespace Reference

theorem dollar_mem_text (reference : Reference) : '$' ∈ reference.text := by
  unfold text
  split <;> simp

/-- A reference has one dollar sign, and begins with it. -/
theorem exists_text_eq {reference : Reference} (valid : Name.isValid reference.name = true) :
    ∃ rest, reference.text = '$' :: rest ∧ '$' ∉ rest := by
  have inName : '$' ∉ reference.name := Name.not_mem_of_isValid valid (by decide)
  unfold text
  split
  · exact ⟨_, rfl, by simp [inName]⟩
  · exact ⟨_, rfl, inName⟩

end Reference

/-- No dollar sign is left of a reference where its name is bound to a value without any
inside of its quotes, and only there. -/
theorem Piece.dollar_not_mem_expanded_iff {map : VariableMap} {reference : Reference} :
    '$' ∉ expanded map (.token reference) ↔
      ∃ value, map.get? reference.name = some value ∧ '$' ∉ value.unquoted := by
  cases known : map.get? reference.name with
  | some value => simp [expanded, known]
  | none => simp [expanded, known, reference.dollar_mem_text]

namespace Text

/-- Every dollar sign of a text begins a reference, whatever stands before it. -/
def EveryDollarRefers (text : Text) : Prop :=
  ∀ before after, text = before ++ '$' :: after → Reference.begins ('$' :: after) = true

theorem everyDollarRefers_cons_iff {first : Char} {rest : Text} :
    EveryDollarRefers (first :: rest) ↔
      (first = '$' → Reference.begins (first :: rest) = true) ∧ rest.EveryDollarRefers := by
  constructor
  · intro refers
    constructor
    · intro dollar
      subst dollar
      exact refers [] rest rfl
    · intro before after equal
      exact refers (first :: before) after (by rw [equal, List.cons_append])
  · rintro ⟨own, later⟩ before after equal
    cases before with
    | nil =>
        cases equal
        exact own rfl
    | cons character before => exact later before after (List.cons.inj equal).2

theorem everyDollarRefers_append_iff {text : Text} (absent : '$' ∉ text) {after : Text} :
    EveryDollarRefers (text ++ after) ↔ after.EveryDollarRefers := by
  induction text with
  | nil => rfl
  | cons first text ih =>
      rw [List.mem_cons, not_or] at absent
      rw [List.cons_append, everyDollarRefers_cons_iff, ih absent.2, and_iff_right_iff_imp]
      intro _ dollar
      exact absurd dollar.symm absent.1

/-- Every dollar sign begins a reference exactly when none is left as a piece of its own. -/
theorem everyDollarRefers_iff {text : Text} :
    text.EveryDollarRefers ↔ .literal '$' ∉ text.pieces := by
  fun_induction pieces text with
  | case1 => simp [EveryDollarRefers]
  | case2 first rest reference after found ih =>
      obtain ⟨tail, equal, absent⟩ :=
        Reference.exists_text_eq (Reference.isValid_of_next? found)
      have joined := Reference.append_of_next? found
      have begins : Reference.begins (first :: rest) = true := by
        rw [Reference.begins, found]
        rfl
      rw [equal, List.cons_append] at joined
      rw [← joined] at begins ⊢
      rw [everyDollarRefers_cons_iff, everyDollarRefers_append_iff absent, ih]
      simp [begins]
  | case3 first rest missing ih =>
      rw [everyDollarRefers_cons_iff, ih, Reference.begins, missing]
      simp [eq_comm]

theorem mem_referencedNames_iff {text name : Text} :
    name ∈ text.referencedNames ↔
      ∃ reference : Reference, .token reference ∈ text.pieces ∧ reference.name = name := by
  constructor
  · intro member
    obtain ⟨reference, inside, named⟩ := List.mem_map.mp member
    obtain ⟨piece, own, isReference⟩ := List.mem_filterMap.mp inside
    cases piece with
    | literal character => cases isReference
    | token other =>
        cases isReference
        exact ⟨reference, own, named⟩
  · rintro ⟨reference, member, rfl⟩
    exact mem_referencedNames member

/-- An expansion is without dollar signs exactly when each dollar sign of the text begins a
reference and each name is bound to a value without any inside of its quotes. -/
theorem dollar_not_mem_expand_iff {map : VariableMap} {text : Text} :
    '$' ∉ (text.expand map).text ↔
      text.EveryDollarRefers ∧ ∀ name ∈ text.referencedNames,
        ∃ value, map.get? name = some value ∧ '$' ∉ value.unquoted := by
  have byPiece : '$' ∉ (text.expand map).text ↔
      ∀ piece ∈ text.pieces, '$' ∉ piece.expanded map := by
    simp [expand]
  rw [byPiece, everyDollarRefers_iff]
  constructor
  · intro noDollar
    refine ⟨fun member => noDollar _ member (by simp [Piece.expanded]), ?_⟩
    intro name member
    obtain ⟨reference, inside, named⟩ := mem_referencedNames_iff.mp member
    rw [← named]
    exact Piece.dollar_not_mem_expanded_iff.mp (noDollar _ inside)
  · rintro ⟨noLiteral, bound⟩ piece member
    cases piece with
    | literal character =>
        simp only [Piece.expanded, List.mem_singleton]
        intro dollar
        exact noLiteral (dollar ▸ member)
    | token reference =>
        exact Piece.dollar_not_mem_expanded_iff.mpr
          (bound reference.name (mem_referencedNames member))

theorem HasReference.dollar_mem {text : Text} (written : text.HasReference) : '$' ∈ text := by
  obtain ⟨before, reference, after, -, equal⟩ := written
  rw [equal]
  simp [reference.dollar_mem_text]

/-- Where every dollar sign begins a reference and every name is bound to a value without
dollar signs inside of its quotes, nothing is missing and no dollar sign is left.  A second
expansion, by whatever map, changes nothing and misses nothing. -/
theorem expand_settles {map : VariableMap} {text : Text} (refers : text.EveryDollarRefers)
    (bound : ∀ name ∈ text.referencedNames,
      ∃ value, map.get? name = some value ∧ '$' ∉ value.unquoted) :
    (text.expand map).missing = [] ∧ '$' ∉ (text.expand map).text ∧
      ∀ other : VariableMap,
        (text.expand map).text.expand other = ⟨(text.expand map).text, []⟩ := by
  have settled := dollar_not_mem_expand_iff.mpr ⟨refers, bound⟩
  refine ⟨expand_missing_eq_nil_iff.mpr ?_, settled, ?_⟩
  · intro name member
    obtain ⟨value, found, -⟩ := bound name member
    rw [SortedMap.contains, found]
    rfl
  · intro other
    have noReferences := references_eq_nil_iff.mpr fun written => settled written.dollar_mem
    exact expand_of_references_eq_nil noReferences other

/-- Escaped references and open braces next to values that begin and end with braces and
name characters. -/
theorem expand_settles_braces :
    let text : Text := "\\$A\x7b$A/$\x7bB_2\x7d".toList
    let map : VariableMap := .ofVariables [⟨"A".toList, "\"B\x7d\"".toList⟩,
      ⟨"B_2".toList, "\x7by".toList⟩]
    let settled : Text := "\\B\x7d\x7bB\x7d/\x7by".toList
    let other : VariableMap := .ofVariables [⟨"B".toList, "$A".toList⟩]
    text.expand map = ⟨settled, []⟩ ∧ '$' ∉ settled ∧ settled.expand other = ⟨settled, []⟩ := by
  intro text map settled other
  have refers : text.EveryDollarRefers := everyDollarRefers_iff.mpr (by decide +kernel)
  have bound : ∀ name ∈ text.referencedNames,
      ∃ value, map.get? name = some value ∧ '$' ∉ value.unquoted := by
    have names : text.referencedNames = ["A".toList, "A".toList, "B_2".toList] := by
      decide +kernel
    rw [names]
    simp only [List.forall_mem_cons]
    refine ⟨⟨"\"B\x7d\"".toList, by decide +kernel, by decide⟩, ⟨"\"B\x7d\"".toList,
      by decide +kernel, by decide⟩, ⟨"\x7by".toList, by decide +kernel, by decide⟩, ?_⟩
    simp
  have expanded : text.expand map = ⟨settled, []⟩ := by decide +kernel
  obtain ⟨-, noDollar, again⟩ := expand_settles refers bound
  rw [expanded] at noDollar again
  exact ⟨expanded, noDollar, again other⟩

end Text

end Dotenv
