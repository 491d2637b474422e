import Dotenv.Reference
import Mathlib.Data.List.Basic

/-!
# Names and references in a text

A text begins with a reference exactly when a dollar sign stands before a name or
before a name between braces, whatever follows.
-/

namespace Dotenv

namespace Name

theorem isLater_of_isFirst {character : Char} (first : isFirst character = true) :
    isLater character = true := by
  simp only [isFirst] at first
  simp [isLater, Char.isAlphanum, first]

theorem isLater_of_mem {name : Text} (valid : isValid name = true) {character : Char}
    (member : character ∈ name) : isLater character = true := by
  cases name with
  | nil => cases member
  | cons first later =>
      simp only [isValid, Bool.and_eq_true, List.all_eq_true] at valid
      rcases List.mem_cons.mp member with equal | member
      · exact equal ▸ isLater_of_isFirst valid.1
      · exact valid.2 character member

theorem not_mem_of_isValid {name : Text} (valid : isValid name = true) {character : Char}
    (foreign : isLater character = false) : character ∉ name := by
  intro member
  rw [isLater_of_mem valid member] at foreign
  cases foreign

/-- A name is read to its end where nothing after it can belong to it. -/
theorem leading?_append {name after : Text} (valid : isValid name = true)
    (stops : ∀ character ∈ after.head?, isLater character = false) :
    leading? (name ++ after) = some (name, after) := by
  cases name with
  | nil => cases valid
  | cons first later =>
      simp only [isValid, Bool.and_eq_true, List.all_eq_true] at valid
      have taken : (later ++ after).takeWhile isLater = later ∧
          (later ++ after).dropWhile isLater = after := by
        rw [List.takeWhile_append_of_pos valid.2, List.dropWhile_append_of_pos valid.2]
        cases after with
        | nil => simp
        | cons next rest =>
            have stop := stops next rfl
            simp [stop]
      simp only [List.cons_append, leading?, valid.1, if_true, taken.1, taken.2]

theorem stops_of_leading? {text name after : Text}
    (found : leading? text = some (name, after)) :
    ∀ character ∈ after.head?, isLater character = false := by
  cases text with
  | nil => cases found
  | cons first rest =>
      simp only [leading?, Option.ite_none_right_eq_some, Option.some.injEq,
        Prod.mk.injEq] at found
      obtain ⟨-, -, equal⟩ := found
      intro character member
      have stop := List.head?_dropWhile_not isLater rest
      rw [equal, Option.mem_def.mp member] at stop
      simpa using stop

/-- A character that no name holds ends the name before it. -/
theorem leading?_append_barrier {barrier : Char} (stops : isLater barrier = false)
    (text rest : Text) :
    leading? (text ++ barrier :: rest) =
      (leading? text).map fun found => (found.1, found.2 ++ barrier :: rest) := by
  cases found : leading? text with
  | some split =>
      obtain ⟨name, after⟩ := split
      have joined := append_of_leading? found
      rw [← joined, List.append_assoc]
      apply leading?_append (isValid_of_leading? found)
      intro character member
      cases after with
      | nil =>
          cases member
          exact stops
      | cons next later =>
          cases member
          exact stops_of_leading? found _ rfl
  | none =>
      cases text with
      | nil =>
          have notFirst : isFirst barrier = false := by
            cases first : isFirst barrier with
            | false => rfl
            | true =>
                rw [isLater_of_isFirst first] at stops
                cases stops
          simp [leading?, notFirst]
      | cons first later =>
          have notFirst : isFirst first = false := by simpa [leading?] using found
          simp [leading?, notFirst]

end Name

namespace Reference

theorem isValid_of_next? {text after : Text} {reference : Reference}
    (found : next? text = some (reference, after)) :
    Name.isValid reference.name = true := by
  unfold next? at found
  split at found
  · split at found
    · rename_i name closed leading
      cases found
      exact Name.isValid_of_leading? leading
    · cases found
  · obtain ⟨split, leading, equal⟩ := Option.map_eq_some_iff.mp found
    cases equal
    exact Name.isValid_of_leading? leading
  · cases found

theorem next?_braced {name : Text} (valid : Name.isValid name = true) (after : Text) :
    next? ('$' :: '{' :: (name ++ '}' :: after)) = some (⟨name, true⟩, after) := by
  have leading : Name.leading? (name ++ '}' :: after) = some (name, '}' :: after) := by
    apply Name.leading?_append valid
    intro character member
    cases member
    rfl
  simp only [next?, leading]

theorem next?_of_ne_dollar {first : Char} (other : first ≠ '$') (rest : Text) :
    next? (first :: rest) = none := by
  rw [next?]
  · intro later equal
    exact other (List.cons.inj equal).1
  · intro later equal
    exact other (List.cons.inj equal).1

/-- A reference is written before a text: its name is valid, and where no brace ends the
name the text does not go on with it. -/
def StandsBefore (reference : Reference) (after : Text) : Prop :=
  Name.isValid reference.name = true ∧
    (reference.braced = false → ∀ character ∈ after.head?, Name.isLater character = false)

theorem next?_text_append {reference : Reference} {after : Text}
    (stands : reference.StandsBefore after) :
    next? (reference.text ++ after) = some (reference, after) := by
  obtain ⟨name, braced⟩ := reference
  obtain ⟨valid, stops⟩ := stands
  cases braced with
  | true => simpa [Reference.text] using next?_braced valid after
  | false =>
      have leading := Name.leading?_append valid (stops rfl)
      cases name with
      | nil => cases valid
      | cons first later =>
          have notBrace : first ≠ '{' := by
            intro equal
            subst equal
            cases Name.isLater_of_mem valid List.mem_cons_self
          simp only [Reference.text, Bool.false_eq_true, if_false, List.cons_append] at leading ⊢
          rw [next?]
          · rw [leading]
            rfl
          · intro rest equal
            exact notBrace (List.cons.inj equal).1

theorem standsBefore_of_next? {text after : Text} {reference : Reference}
    (found : next? text = some (reference, after)) : reference.StandsBefore after := by
  refine ⟨isValid_of_next? found, fun bare => ?_⟩
  unfold next? at found
  split at found
  · split at found
    · cases found
      cases bare
    · cases found
  · obtain ⟨split, leading, equal⟩ := Option.map_eq_some_iff.mp found
    cases equal
    exact Name.stops_of_leading? leading
  · cases found

theorem next?_eq_some_iff {text after : Text} {reference : Reference} :
    next? text = some (reference, after) ↔
      text = reference.text ++ after ∧ reference.StandsBefore after := by
  constructor
  · intro found
    exact ⟨(append_of_next? found).symm, standsBefore_of_next? found⟩
  · rintro ⟨equal, stands⟩
    rw [equal]
    exact next?_text_append stands

theorem begins_bare {name : Text} (valid : Name.isValid name = true) (after : Text) :
    begins ('$' :: (name ++ after)) = true := by
  cases name with
  | nil => cases valid
  | cons first later =>
      simp only [Name.isValid, Bool.and_eq_true] at valid
      have notBrace : first ≠ '{' := by
        intro equal
        subst equal
        cases valid.1
      rw [begins, next?]
      · simp [Name.leading?, valid.1]
      · intro rest equal
        exact notBrace (List.cons.inj equal).1

theorem begins_iff {text : Text} :
    begins text = true ↔ ∃ name after, Name.isValid name = true ∧
      (text = '$' :: (name ++ after) ∨ text = '$' :: '{' :: (name ++ '}' :: after)) := by
  constructor
  · intro begin
    obtain ⟨⟨reference, after⟩, found⟩ := Option.isSome_iff_exists.mp begin
    have joined := append_of_next? found
    refine ⟨reference.name, after, isValid_of_next? found, ?_⟩
    unfold Reference.text at joined
    split at joined
    · right
      simpa using joined.symm
    · left
      simpa using joined.symm
  · rintro ⟨name, after, valid, bare | braced⟩
    · rw [bare]
      exact begins_bare valid after
    · rw [braced, begins, next?_braced valid]
      rfl

theorem begins_text_append {reference : Reference}
    (valid : Name.isValid reference.name = true) (rest : Text) :
    begins (reference.text ++ rest) = true := by
  refine begins_iff.mpr ⟨reference.name, rest, valid, ?_⟩
  cases braced : reference.braced with
  | true => exact .inr (by simp [text, braced])
  | false => exact .inl (by simp [text, braced])

/-- A reference that a text begins with still begins it when more text follows. -/
theorem begins_append {text : Text} (begin : begins text = true) (tail : Text) :
    begins (text ++ tail) = true := by
  obtain ⟨name, after, valid, bare | braced⟩ := begins_iff.mp begin
  · refine begins_iff.mpr ⟨name, after ++ tail, valid, .inl ?_⟩
    simp [bare]
  · refine begins_iff.mpr ⟨name, after ++ tail, valid, .inr ?_⟩
    simp [braced]

/-- A character that stands in no reference after its dollar sign. -/
def IsBarrier (barrier : Char) : Prop :=
  Name.isLater barrier = false ∧ barrier ≠ '{' ∧ barrier ≠ '}'

instance (barrier : Char) : Decidable (IsBarrier barrier) :=
  inferInstanceAs (Decidable (_ ∧ _ ∧ _))

theorem isBarrier_lineFeed : IsBarrier '\n' := by decide

theorem isBarrier_return : IsBarrier '\r' := by decide

theorem isBarrier_quote : IsBarrier '"' := by decide

/-- What stands at a barrier or after it decides nothing about a reference before it. -/
theorem next?_append_barrier {barrier : Char} (isBarrier : IsBarrier barrier) {text : Text}
    (nonempty : text ≠ []) (rest : Text) :
    next? (text ++ barrier :: rest) =
      (next? text).map fun found => (found.1, found.2 ++ barrier :: rest) := by
  obtain ⟨stops, notOpening, notClosing⟩ := isBarrier
  fun_cases next? text with
  | case1 inner name after leading =>
      have whole := Name.leading?_append_barrier stops inner rest
      rw [leading] at whole
      simp [next?, whole]
  | case2 inner unclosed =>
      have whole := Name.leading?_append_barrier stops inner rest
      simp only [List.cons_append, next?, whole]
      cases leading : Name.leading? inner with
      | none => rfl
      | some found =>
          obtain ⟨name, after⟩ := found
          cases after with
          | nil =>
              simp only [Option.map_some, List.nil_append]
              split
              · rename_i equal
                cases equal
                exact absurd rfl notClosing
              · rfl
          | cons next later =>
              simp only [Option.map_some, List.cons_append]
              split
              · rename_i equal
                cases equal
                exact absurd leading (unclosed name later)
              · rfl
  | case3 inner notBraced =>
      have whole := Name.leading?_append_barrier stops inner rest
      rw [List.cons_append, next?]
      · rw [whole, Option.map_map, Option.map_map]
        rfl
      · intro later equal
        cases inner with
        | nil => exact notOpening (List.cons.inj equal).1
        | cons first inner => exact notBraced inner (by rw [(List.cons.inj equal).1])
  | case4 _ notBraced notDollar =>
      cases text with
      | nil => exact absurd rfl nonempty
      | cons first later =>
          have other : first ≠ '$' := fun equal => notDollar later (by rw [equal])
          rw [List.cons_append, next?_of_ne_dollar other]
          rfl

theorem begins_append_barrier {barrier : Char} (isBarrier : IsBarrier barrier) {text : Text}
    (nonempty : text ≠ []) (rest : Text) : begins (text ++ barrier :: rest) = begins text := by
  rw [begins, begins, next?_append_barrier isBarrier nonempty, Option.isSome_map]

end Reference

end Dotenv
