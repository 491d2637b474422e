import Dotenv.Proofs.StrictReferences

/-!
# Stray dollar signs read from the left

The search for stray dollar signs looks back at the backslashes before each dollar sign.
Reading from the left, where a backslash takes the character after it along, comes to the
same ones: the search ends at the first dollar sign that is read by itself and that no name
follows.
-/

namespace Dotenv

/-- A text goes on as a reference does after its dollar sign, with a name or with a name
between braces. -/
def Reference.Completes (after : Text) : Prop :=
  ∃ name rest, Name.isValid name = true ∧
    (after = name ++ rest ∨ after = '{' :: (name ++ '}' :: rest))

theorem Reference.begins_cons_dollar_iff {after : Text} :
    begins ('$' :: after) = true ↔ Completes after := by
  simp only [begins_iff, Completes, List.cons.injEq, true_and]

namespace Escape

/-- What is read at once from the left: a backslash with the character after it, or a
character by itself. -/
inductive Item where
  | escape (escaped : Char)
  | single (character : Char)
  deriving DecidableEq, Repr

def Item.text : Item → Text
  | .escape escaped => ['\\', escaped]
  | .single character => [character]

/-- The items of a text from left to right.  A backslash at the end of the text is read by
itself. -/
def items : Text → List Item
  | [] => []
  | '\\' :: escaped :: rest => .escape escaped :: items rest
  | first :: rest => .single first :: items rest

/-- Items written one after the other. -/
def spelled (listed : List Item) : Text := listed.flatMap Item.text

@[simp]
theorem spelled_cons (item : Item) (rest : List Item) :
    spelled (item :: rest) = item.text ++ spelled rest := rfl

/-- Reading loses nothing. -/
@[simp]
theorem spelled_items (text : Text) : spelled (items text) = text := by
  fun_induction items text with
  | case1 => rfl
  | case2 escaped rest ih => simp [Item.text, ih]
  | case3 first rest notEscape ih => simp [Item.text, ih]

/-- Every dollar sign that is read by itself begins a reference. -/
def NoneStray (listed : List Item) : Prop :=
  ∀ before after, listed = before ++ .single '$' :: after →
    Reference.Completes (spelled after)

/-- A dollar sign that is read by itself and begins no reference, where each one that is
read before it does. -/
structure IsFirstStray (listed before after : List Item) : Prop where
  split : listed = before ++ .single '$' :: after
  stray : ¬ Reference.Completes (spelled after)
  earlier : ∀ others later, listed = others ++ .single '$' :: later →
    others.length < before.length → Reference.Completes (spelled later)

section Items

variable {item : Item} {listed before after : List Item}

theorem noneStray_nil : NoneStray [] := by
  intro before after split
  simp at split

theorem NoneStray.cons (own : item = .single '$' → Reference.Completes (spelled listed))
    (clean : NoneStray listed) : NoneStray (item :: listed) := by
  intro before after split
  rcases List.cons_eq_append_iff.mp split with ⟨_, equal⟩ | ⟨others, _, restSplit⟩
  · obtain ⟨dollar, same⟩ := List.cons.inj equal
    rw [same]
    exact own dollar.symm
  · exact clean others after restSplit

theorem isFirstStray_head (stray : ¬ Reference.Completes (spelled listed)) :
    IsFirstStray (.single '$' :: listed) [] listed where
  split := rfl
  stray := stray
  earlier := by
    intro others later _ shorter
    exact absurd shorter (Nat.not_lt_zero _)

theorem IsFirstStray.cons (own : item = .single '$' → Reference.Completes (spelled listed))
    (found : IsFirstStray listed before after) :
    IsFirstStray (item :: listed) (item :: before) after where
  split := by rw [found.split, List.cons_append]
  stray := found.stray
  earlier := by
    intro others later split shorter
    rcases List.cons_eq_append_iff.mp split with ⟨_, equal⟩ | ⟨rest, othersEqual, restSplit⟩
    · obtain ⟨dollar, same⟩ := List.cons.inj equal
      rw [same]
      exact own dollar.symm
    · rw [othersEqual, List.length_cons, List.length_cons] at shorter
      exact found.earlier rest later restSplit (by omega)

theorem IsFirstStray.not_noneStray (found : IsFirstStray listed before after) :
    ¬ NoneStray listed := by
  intro clean
  exact found.stray (clean before after found.split)

/-- Of two dollar signs that are the first stray one neither stands before the other. -/
theorem IsFirstStray.length_le {others later : List Item}
    (found : IsFirstStray listed before after) (other : IsFirstStray listed others later) :
    before.length ≤ others.length := by
  by_contra shorter
  exact other.stray (found.earlier others later other.split (by omega))

theorem IsFirstStray.unique {others later : List Item}
    (found : IsFirstStray listed before after) (other : IsFirstStray listed others later) :
    before = others := by
  have same : before.length = others.length :=
    Nat.le_antisymm (found.length_le other) (other.length_le found)
  have split := found.split.symm.trans other.split
  exact (List.append_inj split same).1

end Items

/-- What a search for the first stray dollar sign says of items that stand after a number of
characters. -/
inductive FindsFirstStray (listed : List Item) (passed : Nat) : Option Nat → Prop where
  | nothing (clean : NoneStray listed) : FindsFirstStray listed passed none
  | place {before after : List Item} (first : IsFirstStray listed before after) :
      FindsFirstStray listed passed (some (passed + (spelled before).length))

theorem FindsFirstStray.cons {item : Item} {listed : List Item} {passed : Nat}
    {result : Option Nat} (own : item = .single '$' → Reference.Completes (spelled listed))
    (finds : FindsFirstStray listed (passed + item.text.length) result) :
    FindsFirstStray (item :: listed) passed result := by
  cases finds with
  | nothing clean => exact .nothing (clean.cons own)
  | place first =>
      have whole : FindsFirstStray (item :: listed) passed
          (some (passed + (spelled (item :: _)).length)) := .place (first.cons own)
      rwa [spelled_cons, List.length_append, ← Nat.add_assoc] at whole

theorem strayFrom_cons_of_stray {reversed rest : Text}
    (even : followsReversed reversed = false)
    (stray : ¬ Reference.Completes rest) :
    strayFrom reversed ('$' :: rest) = some reversed.length := by
  rw [← Reference.begins_cons_dollar_iff, Bool.not_eq_true] at stray
  simp [strayFrom, even, stray]

/-- The search that looks back finds what is found by reading from the left. -/
theorem findsFirstStray_strayFrom (text reversed : Text)
    (even : followsReversed reversed = false) :
    FindsFirstStray (items text) reversed.length (strayFrom reversed text) := by
  -- behind every item the number of backslashes to look back at is even
  fun_induction items text generalizing reversed with
  | case1 => exact .nothing noneStray_nil
  | case2 escaped rest ih =>
      rw [strayFrom_cons_pair even]
      apply FindsFirstStray.cons
      · intro equal
        cases equal
      · exact ih _ (followsReversed_cons_pair even escaped)
  | case3 first rest notEscape ih =>
      by_cases dollar : first = '$'
      · subst dollar
        by_cases completes : Reference.Completes rest
        · rw [strayFrom_cons_of_reference (Reference.begins_cons_dollar_iff.mpr completes)]
          apply FindsFirstStray.cons
          · intro _
            rwa [spelled_items]
          · exact ih _ (followsReversed_cons_of_ne (by decide) _)
        · rw [strayFrom_cons_of_stray even completes]
          exact .place (isFirstStray_head (by rwa [spelled_items]))
      · rw [strayFrom_cons_of_ne dollar]
        apply FindsFirstStray.cons
        · intro equal
          exact absurd (Item.single.inj equal) dollar
        · by_cases backslash : first = '\\'
          · cases rest with
            | nil => exact .nothing noneStray_nil
            | cons escaped later => exact (notEscape escaped later backslash rfl).elim
          · exact ih _ (followsReversed_cons_of_ne backslash _)

theorem stray?_eq_none_iff {text : Text} : stray? text = none ↔ NoneStray (items text) := by
  have finds : FindsFirstStray (items text) 0 (stray? text) :=
    findsFirstStray_strayFrom text [] rfl
  generalize stray? text = result at finds
  cases finds with
  | nothing clean => exact ⟨fun _ => clean, fun _ => rfl⟩
  | place first =>
      refine ⟨fun nothing => ?_, fun clean => absurd clean first.not_noneStray⟩
      cases nothing

theorem stray?_eq_some_iff {text : Text} {place : Nat} :
    stray? text = some place ↔
      ∃ before after, IsFirstStray (items text) before after ∧
        (spelled before).length = place := by
  have finds : FindsFirstStray (items text) 0 (stray? text) :=
    findsFirstStray_strayFrom text [] rfl
  generalize stray? text = result at finds
  cases finds with
  | nothing clean =>
      constructor
      · intro found
        cases found
      · rintro ⟨before, after, first, -⟩
        exact absurd clean first.not_noneStray
  | @place before after first =>
      rw [Nat.zero_add, Option.some.injEq]
      constructor
      · intro equal
        exact ⟨before, after, first, equal⟩
      · rintro ⟨others, later, other, equal⟩
        rw [first.unique other, equal]

end Escape

namespace Text

theorem checkReferences_eq_ok_iff {text : Text} :
    text.checkReferences = .ok () ↔ Escape.NoneStray (Escape.items text) := by
  rw [← Escape.stray?_eq_none_iff, checkReferences]
  cases Escape.stray? text with
  | none => simp
  | some place => simp

theorem checkReferences_eq_error_iff {text : Text} {fault : Fault} :
    text.checkReferences = .error fault ↔
      ∃ before after, Escape.IsFirstStray (Escape.items text) before after ∧
        fault = .invalidReference none ((Escape.spelled before).length + 1) := by
  have reported : text.checkReferences = .error fault ↔
      ∃ place, Escape.stray? text = some place ∧
        fault = .invalidReference none (place + 1) := by
    rw [checkReferences]
    cases Escape.stray? text with
    | none => simp
    | some place => simp [eq_comm]
  rw [reported]
  simp only [Escape.stray?_eq_some_iff]
  constructor
  · rintro ⟨place, ⟨before, after, first, equal⟩, faultEqual⟩
    rw [← equal] at faultEqual
    exact ⟨before, after, first, faultEqual⟩
  · rintro ⟨before, after, first, faultEqual⟩
    exact ⟨_, ⟨before, after, first, rfl⟩, faultEqual⟩

/-- The check of a text passes exactly when every dollar sign that is read by itself begins a
reference, and otherwise reports the place of the first one that does not.  Strict
expansion fails as the check does, and where the check passes it is plain expansion. -/
theorem checkReferences_reads_left_to_right (text : Text) :
    (text.checkReferences = .ok () ↔ Escape.NoneStray (Escape.items text)) ∧
    (∀ fault, text.checkReferences = .error fault ↔
      ∃ before after, Escape.IsFirstStray (Escape.items text) before after ∧
        fault = .invalidReference none ((Escape.spelled before).length + 1)) ∧
    ∀ map,
      (∀ fault, text.expandWith true map = .error fault ↔
        text.checkReferences = .error fault) ∧
      (∀ expansion, text.expandWith true map = .ok expansion ↔
        text.checkReferences = .ok () ∧ text.expandWith false map = .ok expansion) ∧
      text.expandWith false map = .ok (text.expand map) := by
  refine ⟨checkReferences_eq_ok_iff, fun fault => checkReferences_eq_error_iff, fun map => ?_⟩
  rw [expandWith, expandWith]
  cases text.checkReferences with
  | error found => simp [Except.map]
  | ok _ => simp [Except.map]

/-- The second backslash is escaped and the third one escapes a dollar sign. -/
example :
    checkReferences "\\\\$A \\$ é $\x7b".toList = .error (.invalidReference none 11) := by
  decide

end Text

end Dotenv
