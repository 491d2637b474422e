import Dotenv.Proofs.DefinitionGrammar
import Dotenv.Proofs.Pieces

/-!
# Dollar signs in expanded values

A value that is expanded has no references left but those that its parts make up
anew, and these stand behind a backslash: every other dollar sign of a value begins
a reference, which is replaced.  So a value that contains a reference can never be
its own expansion.
-/

namespace Dotenv

namespace Text

/-- Every dollar sign stands right behind a backslash. -/
def IsGuarded (text : Text) : Prop :=
  ∀ before after, text = before ++ '$' :: after → before.getLast? = some '\\'

theorem isGuarded_of_not_mem {text : Text} (absent : '$' ∉ text) : text.IsGuarded := by
  intro before after equal
  exact absurd (by simp [equal]) absent

theorem isGuarded_escaped : IsGuarded ['\\', '$'] := by
  intro before after equal
  cases before with
  | nil => cases equal
  | cons first before =>
      obtain ⟨rfl, rest⟩ := List.cons.inj equal
      cases before with
      | nil => rfl
      | cons second before => simp at rest

theorem not_isGuarded_cons_dollar (rest : Text) : ¬ IsGuarded ('$' :: rest) := by
  intro guarded
  cases guarded [] rest rfl

theorem IsGuarded.append {first second : Text} (firstGuarded : first.IsGuarded)
    (secondGuarded : second.IsGuarded) : IsGuarded (first ++ second) := by
  intro before after equal
  rcases List.append_eq_append_iff.mp equal with
    ⟨between, beforeEqual, secondEqual⟩ | ⟨between, firstEqual, restEqual⟩
  · have behind := secondGuarded between after secondEqual
    rw [beforeEqual, List.getLast?_append, behind]
    rfl
  · cases between with
    | nil =>
        rw [List.nil_append] at restEqual
        exact absurd (restEqual ▸ secondGuarded) (not_isGuarded_cons_dollar after)
    | cons dollar between =>
        obtain ⟨rfl, -⟩ := List.cons.inj restEqual
        exact firstGuarded before between firstEqual

theorem IsGuarded.unquoted {text : Text} (guarded : text.IsGuarded) :
    text.unquoted.IsGuarded := by
  unfold Text.unquoted
  split
  · rename_i rest
    split
    · rename_i closed
      obtain ⟨inner, equal⟩ := List.getLast?_eq_some_iff.mp closed
      subst equal
      rw [List.dropLast_concat]
      intro before after innerEqual
      have behind := guarded ('"' :: before) (after ++ ['"']) (by simp [innerEqual])
      cases before with
      | nil => cases behind
      | cons first before => simpa [List.getLast?_cons] using behind
    · exact guarded
  · exact guarded

/-- Where only blanks stand before a dollar sign, it is not guarded. -/
theorem not_isGuarded_blanks_append {blanks : Text}
    (areBlank : ∀ character ∈ blanks, isBlank character = true) (rest : Text) :
    ¬ IsGuarded (blanks ++ '$' :: rest) := by
  intro guarded
  have behind := guarded blanks rest rfl
  have blank := areBlank '\\' (List.mem_of_getLast? behind)
  cases blank

end Text

namespace Value

theorem isInner_of_next? {loneBackslash : Bool} {rest after : Text} {reference : Reference}
    (inner : isInner loneBackslash rest = true)
    (found : Reference.next? ('$' :: rest) = some (reference, after)) :
    isInner loneBackslash after = true := by
  obtain ⟨characters, equal, arePlain⟩ := exists_plain_text (Reference.isValid_of_next? found)
  have joined := Reference.append_of_next? found
  rw [equal, List.cons_append] at joined
  rw [← (List.cons.inj joined).2, isInner_append_of_isPlain loneBackslash arePlain] at inner
  exact inner

end Value

namespace Text

/-- Every dollar sign of a text is accounted for: it begins a reference or stands behind
a backslash.  A reference may stand behind a backslash too. -/
inductive Accounted : Text → Prop where
  | nil : Accounted []
  | character {first : Char} {rest : Text} (other : first ≠ '$') (later : Accounted rest) :
      Accounted (first :: rest)
  | dollar {rest : Text} (absent : Reference.next? ('$' :: rest) = none)
      (later : Accounted rest) : Accounted ('\\' :: '$' :: rest)
  | reference {text after : Text} {reference : Reference}
      (found : Reference.next? text = some (reference, after)) (later : Accounted after) :
      Accounted text

theorem Accounted.append_quote {text : Text} (accounted : text.Accounted) :
    Accounted (text ++ ['"']) := by
  induction accounted with
  | nil => exact .character (by decide) .nil
  | character other later ih => exact .character other ih
  | @dollar rest absent later ih =>
      have whole := Reference.next?_append_barrier Reference.isBarrier_quote
        (List.cons_ne_nil '$' rest) []
      rw [absent] at whole
      exact .dollar whole ih
  | @reference text after reference found later ih =>
      have nonempty : text ≠ [] := by
        intro empty
        rw [empty] at found
        cases found
      have whole := Reference.next?_append_barrier Reference.isBarrier_quote nonempty []
      rw [found] at whole
      exact .reference whole ih

end Text

namespace Value

theorem accounted_of_isInner {loneBackslash : Bool} {text : Text}
    (inner : isInner loneBackslash text = true) : text.Accounted := by
  -- a reference is read at once, so the induction is on the length
  induction length : text.length using Nat.strongRecOn generalizing text with
  | ind size ih =>
      subst length
      fun_cases isInner loneBackslash text with
      | case1 => exact .nil
      | case2 => exact .character (by decide) .nil
      | case3 escaped rest =>
          simp only [isInner, Bool.and_eq_true] at inner
          by_cases isDollar : escaped = '$'
          · subst isDollar
            cases found : Reference.next? ('$' :: rest) with
            | none =>
                have later := ih rest.length (by simp only [List.length_cons]; omega) inner.2 rfl
                exact .dollar found later
            | some split =>
                obtain ⟨reference, after⟩ := split
                have shorter := Reference.length_lt_of_next? found
                have later := ih after.length (by simp only [List.length_cons] at shorter ⊢; omega)
                  (isInner_of_next? inner.2 found) rfl
                exact .character (by decide) (.reference found later)
          · have later := ih rest.length (by simp only [List.length_cons]; omega) inner.2 rfl
            exact .character (by decide) (.character isDollar later)
      | case4 rest =>
          rw [isInner, Bool.and_eq_true] at inner
          obtain ⟨⟨reference, after⟩, found⟩ := Option.isSome_iff_exists.mp inner.1
          have shorter := Reference.length_lt_of_next? found
          exact .reference found (ih after.length shorter (isInner_of_next? inner.2 found) rfl)
      | case5 first rest notLast notEscape notDollar =>
          rw [isInner.eq_5 _ _ _ notLast notEscape notDollar, Bool.and_eq_true] at inner
          exact .character notDollar (ih rest.length (by simp) inner.2 rfl)

theorem accounted_of_isValid {text : Text} (valid : isValid text = true) : text.Accounted := by
  rcases Bool.or_eq_true_iff.mp valid with inner | quoted
  · exact accounted_of_isInner inner
  · obtain ⟨inside, equal, inner⟩ := exists_of_isQuoted quoted
    rw [equal]
    exact .character (by decide) (accounted_of_isInner inner).append_quote

end Value

namespace VariableMap

/-- The values of a map have no dollar sign without a backslash before it. -/
def IsGuarded (map : VariableMap) : Prop :=
  ∀ name value, map.get? name = some value → value.IsGuarded

theorem isGuarded_empty : IsGuarded .empty := by
  intro name value found
  cases found

theorem IsGuarded.insert {map : VariableMap} (guarded : map.IsGuarded) (name : Text)
    {value : Text} (own : value.IsGuarded) : IsGuarded (map.insert name value) :=
  SortedMap.forall_get?_insert guarded own

/-- What stands in place of a reference that is not absent is guarded. -/
theorem IsGuarded.expanded {map : VariableMap} (guarded : map.IsGuarded)
    {reference : Reference} (present : Piece.missing? map (.token reference) = none) :
    (Piece.expanded map (.token reference)).IsGuarded := by
  obtain ⟨value, found, replaced⟩ := Piece.exists_value_of_missing?_eq_none present
  rw [replaced]
  exact (guarded _ _ found).unquoted

end VariableMap

namespace Text

theorem missing_of_next? {text after : Text} {reference : Reference}
    (found : Reference.next? text = some (reference, after)) (map : VariableMap)
    (resolved : (expand map text).missing = []) :
    Piece.missing? map (.token reference) = none ∧ (expand map after).missing = [] := by
  rw [expand, pieces_of_next? found] at resolved
  cases present : Piece.missing? map (.token reference) with
  | none =>
      rw [List.filterMap_cons_none present] at resolved
      exact ⟨rfl, resolved⟩
  | some name =>
      rw [List.filterMap_cons_some present] at resolved
      cases resolved

section Expansion

variable {map : VariableMap} {text : Text}

theorem expand_cons_dollar {rest : Text}
    (absent : Reference.next? ('$' :: rest) = none) (map : VariableMap) :
    expand map ('\\' :: '$' :: rest) =
      ⟨'\\' :: '$' :: (expand map rest).text, (expand map rest).missing⟩ := by
  rw [expand_cons_of_ne_dollar (by decide), expand_cons_of_not_next? absent]

/-- Expansion leaves no dollar sign but those behind a backslash. -/
theorem Accounted.isGuarded_expand (accounted : text.Accounted) (guarded : map.IsGuarded)
    (resolved : (expand map text).missing = []) : (expand map text).text.IsGuarded := by
  induction accounted with
  | nil =>
      rw [expand_nil]
      exact isGuarded_of_not_mem (by simp)
  | @character first rest other later ih =>
      rw [expand_cons_of_ne_dollar other] at resolved ⊢
      have single : IsGuarded [first] := isGuarded_of_not_mem (by simp [Ne.symm other])
      exact single.append (ih resolved)
  | dollar absent later ih =>
      rw [expand_cons_dollar absent] at resolved ⊢
      exact isGuarded_escaped.append (ih resolved)
  | reference found later ih =>
      obtain ⟨present, laterResolved⟩ := missing_of_next? found map resolved
      rw [expand_of_next? found]
      exact (guarded.expanded present).append (ih laterResolved)

/-- Only a text without references comes back unchanged from an expansion. -/
theorem Accounted.references_eq_nil (accounted : text.Accounted) (guarded : map.IsGuarded)
    (resolved : (expand map text).missing = []) {ending : Text}
    (unchanged : (expand map text).text = text ++ ending) : references text = [] := by
  induction accounted with
  | nil => simp [references]
  | @character first rest other later ih =>
      rw [expand_cons_of_ne_dollar other] at resolved unchanged
      rw [references_cons_of_not_next? (Reference.next?_of_ne_dollar other rest)]
      exact ih resolved (List.cons.inj unchanged).2
  | dollar absent later ih =>
      rw [expand_cons_dollar absent] at resolved unchanged
      rw [references_cons_of_not_next? (Reference.next?_of_ne_dollar (by decide) _),
        references_cons_of_not_next? absent]
      exact ih resolved (List.cons.inj (List.cons.inj unchanged).2).2
  | reference found later ih =>
      -- what replaces the reference would have to begin with a dollar sign
      have replaced := (Accounted.reference found later).isGuarded_expand guarded resolved
      obtain ⟨characters, equal, -⟩ :=
        Value.exists_plain_text (Reference.isValid_of_next? found)
      rw [unchanged, ← Reference.append_of_next? found, equal] at replaced
      exact absurd replaced (not_isGuarded_cons_dollar _)

/-- A text that starts with no blank has no references if its expansion differs from it by
blanks before it and an ending only. -/
theorem Accounted.references_eq_nil_of_blanks (accounted : text.Accounted)
    (guarded : map.IsGuarded) (resolved : (expand map text).missing = [])
    (visible : ∀ first ∈ text.head?, isBlank first = false) {blanks ending : Text}
    (areBlank : ∀ character ∈ blanks, isBlank character = true)
    (trimmed : (expand map text).text = blanks ++ (text ++ ending)) :
    references text = [] := by
  cases blanks with
  | nil => exact accounted.references_eq_nil guarded resolved trimmed
  | cons blank others =>
      have isBlank := areBlank blank List.mem_cons_self
      have guardedText := accounted.isGuarded_expand guarded resolved
      cases text with
      | nil => simp [references]
      | cons first rest =>
          have visibleFirst := visible first rfl
          cases found : Reference.next? (first :: rest) with
          | none =>
              -- the first character stays in its place, and it is no blank
              rw [expand_cons_of_not_next? found] at trimmed
              rw [(List.cons.inj trimmed).1, isBlank] at visibleFirst
              cases visibleFirst
          | some split =>
              obtain ⟨reference, after⟩ := split
              obtain ⟨characters, equal, -⟩ :=
                Value.exists_plain_text (Reference.isValid_of_next? found)
              rw [trimmed, ← Reference.append_of_next? found, equal] at guardedText
              exact absurd guardedText (not_isGuarded_blanks_append areBlank _)

end Expansion

end Text

end Dotenv
