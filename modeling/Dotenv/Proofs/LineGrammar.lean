import Dotenv.Line
import Dotenv.Proofs.References
import Mathlib.Data.List.Basic

/-!
# What a definition line yields

The name of a definition is a name, its value is a value that starts with no
blank, and neither of the two holds a line feed.
-/

namespace Dotenv

namespace Value

theorem lineFeed_not_mem_of_isInner {loneBackslash : Bool} {text : Text}
    (inner : isInner loneBackslash text = true) : '\n' ∉ text := by
  fun_induction isInner loneBackslash text with
  | case1 => simp
  | case2 => decide
  | case3 escaped rest ih =>
      simp only [Bool.and_eq_true, bne_iff_ne] at inner
      simp [ih inner.2, Ne.symm inner.1]
  | case4 rest ih =>
      simp only [Bool.and_eq_true] at inner
      simp [ih inner.2]
  | case5 first rest notLast notEscape notDollar ih =>
      simp only [Bool.and_eq_true, bne_iff_ne] at inner
      simp [ih inner.2, Ne.symm inner.1.2]

/-- A character that is neither a last backslash nor one before another character is no
backslash. -/
theorem ne_backslash {first : Char} {rest : Text}
    (notLast : first = '\\' → rest = [] → False)
    (notEscape : ∀ escaped later, first = '\\' → rest = escaped :: later → False) :
    first ≠ '\\' := by
  intro equal
  cases rest with
  | nil => exact notLast equal rfl
  | cons escaped later => exact notEscape escaped later equal rfl

theorem exists_of_isQuoted {text : Text} (quoted : isQuoted text = true) :
    ∃ inner, text = '"' :: inner ++ ['"'] ∧ isInner false inner = true := by
  unfold isQuoted at quoted
  split at quoted
  · rename_i rest
    simp only [Bool.and_eq_true, beq_iff_eq] at quoted
    obtain ⟨inner, equal⟩ := List.getLast?_eq_some_iff.mp quoted.1
    subst equal
    exact ⟨inner, rfl, by simpa using quoted.2⟩
  · cases quoted

theorem lineFeed_not_mem {text : Text} (valid : isValid text = true) : '\n' ∉ text := by
  rcases Bool.or_eq_true_iff.mp valid with inner | quoted
  · exact lineFeed_not_mem_of_isInner inner
  · obtain ⟨inner, equal, valid⟩ := exists_of_isQuoted quoted
    simp [equal, lineFeed_not_mem_of_isInner valid]

end Value

namespace Text

@[simp]
theorem trimBlanks_append {blanks : Text}
    (blank : ∀ character ∈ blanks, isBlank character = true) (rest : Text) :
    trimBlanks (blanks ++ rest) = trimBlanks rest :=
  List.dropWhile_append_of_pos blank

theorem trimBlanks_cons_of_blank {first : Char} (blank : isBlank first = true) (rest : Text) :
    trimBlanks (first :: rest) = trimBlanks rest := by
  simp [trimBlanks, blank]

theorem trimBlanks_cons_of_not_blank {first : Char} (visible : isBlank first = false)
    (rest : Text) : trimBlanks (first :: rest) = first :: rest := by
  simp [trimBlanks, visible]

theorem trimBlanks_eq_self {text : Text}
    (visible : ∀ first ∈ text.head?, isBlank first = false) : trimBlanks text = text := by
  cases text with
  | nil => rfl
  | cons first rest => exact trimBlanks_cons_of_not_blank (visible first rfl) rest

theorem not_blank_of_mem_head?_trimBlanks {text : Text} {first : Char}
    (member : first ∈ text.trimBlanks.head?) : isBlank first = false := by
  induction text with
  | nil => cases member
  | cons character rest ih =>
      cases blank : isBlank character with
      | true =>
          rw [trimBlanks_cons_of_blank blank] at member
          exact ih member
      | false =>
          rw [trimBlanks_cons_of_not_blank blank] at member
          cases member
          exact blank

theorem isBlank_eq_false_of_isLater {character : Char}
    (later : Name.isLater character = true) : isBlank character = false := by
  cases blank : isBlank character with
  | false => rfl
  | true =>
      simp only [isBlank, Bool.or_eq_true, beq_iff_eq] at blank
      rcases blank with equal | equal <;> subst equal <;> cases later

theorem isLater_eq_false_of_isBlank {character : Char} (blank : isBlank character = true) :
    Name.isLater character = false := by
  cases later : Name.isLater character with
  | false => rfl
  | true =>
      rw [isBlank_eq_false_of_isLater later] at blank
      cases blank

end Text

namespace Line

/-- What may stand before the name of a definition: nothing, or the word `export`
with blanks after it. -/
def IsLead (lead : Text) : Prop :=
  lead = [] ∨ ∃ gap, gap ≠ [] ∧ (∀ character ∈ gap, Text.isBlank character = true) ∧
    lead = exportWord ++ gap

/-- What comes before the equals sign starts with a character that a name may have. -/
theorem IsLead.exists_cons {lead name : Text} (isLead : IsLead lead)
    (valid : Name.isValid name = true) (rest : Text) :
    ∃ first others, lead ++ (name ++ rest) = first :: others ∧
      Name.isLater first = true := by
  rcases isLead with empty | ⟨gap, -, -, equal⟩
  · subst empty
    cases name with
    | nil => cases valid
    | cons first later =>
        exact ⟨first, _, rfl, Name.isLater_of_mem valid List.mem_cons_self⟩
  · subst equal
    exact ⟨'e', _, rfl, rfl⟩

theorem IsLead.trimBlanks_append {lead name : Text} (isLead : IsLead lead)
    (valid : Name.isValid name = true) (rest : Text) :
    Text.trimBlanks (lead ++ (name ++ rest)) = lead ++ (name ++ rest) := by
  obtain ⟨first, others, equal, later⟩ := isLead.exists_cons valid rest
  rw [equal, Text.trimBlanks_cons_of_not_blank (Text.isBlank_eq_false_of_isLater later)]

section Spelled

variable {name before after value : Text}

/-- No character after a name can belong to it. -/
theorem isLater_eq_false_of_mem_head?
    (beforeBlank : ∀ character ∈ before, Text.isBlank character = true) (rest : Text) :
    ∀ character ∈ (before ++ '=' :: rest).head?, Name.isLater character = false := by
  intro character member
  cases before with
  | nil =>
      cases member
      rfl
  | cons first blanks =>
      cases member
      exact Text.isLater_eq_false_of_isBlank (beforeBlank _ List.mem_cons_self)

theorem assignment?_append (valid : Name.isValid name = true)
    (beforeBlank : ∀ character ∈ before, Text.isBlank character = true)
    (afterBlank : ∀ character ∈ after, Text.isBlank character = true)
    (noLineFeed : '\n' ∉ value) :
    assignment? (name ++ (before ++ '=' :: (after ++ value))) =
      some ⟨name, value.trimBlanks⟩ := by
  have noLineFeedAfterTrim : Text.hasLineFeed value.trimBlanks = false := by
    rw [Text.hasLineFeed, List.contains_eq_mem, decide_eq_false_iff_not]
    exact fun member => noLineFeed (List.dropWhile_sublist _ |>.subset member)
  rw [assignment?, Name.leading?_append valid (isLater_eq_false_of_mem_head? beforeBlank _)]
  simp only [Option.bind_some, Text.trimBlanks_append beforeBlank,
    Text.trimBlanks_cons_of_not_blank (show Text.isBlank '=' = false from rfl),
    Text.trimBlanks_append afterBlank, noLineFeedAfterTrim]
  rfl

end Spelled

theorem of_afterExport? {text rest : Text} (found : afterExport? text = some rest) :
    ∃ first others, text = exportWord ++ first :: others ∧
      Text.isBlank first = true ∧ rest = Text.trimBlanks others := by
  unfold afterExport? at found
  split at found
  · rename_i isPrefix
    obtain ⟨tail, equal⟩ := List.isPrefixOf_iff_prefix.mp isPrefix
    subst equal
    rw [List.drop_left] at found
    split at found
    · rename_i first others
      split at found
      · rename_i blank
        cases found
        exact ⟨first, others, rfl, blank, rfl⟩
      · cases found
    · cases found
  · cases found

theorem afterExport?_append {gap : Text}
    (gapBlank : ∀ character ∈ gap, Text.isBlank character = true) (nonempty : gap ≠ [])
    (rest : Text) :
    afterExport? (exportWord ++ (gap ++ rest)) = some (Text.trimBlanks rest) := by
  have isPrefix : exportWord.isPrefixOf (exportWord ++ (gap ++ rest)) = true :=
    List.isPrefixOf_iff_prefix.mpr (List.prefix_append _ _)
  cases gap with
  | nil => exact absurd rfl nonempty
  | cons first others =>
      have othersBlank := fun character member =>
        gapBlank character (List.mem_cons_of_mem _ member)
      rw [afterExport?, if_pos isPrefix, List.drop_left]
      simp only [List.cons_append, gapBlank first List.mem_cons_self, if_true,
        Text.trimBlanks_append othersBlank]

section Spelled

variable {name before after value : Text}

/-- Where a definition starts with its name, the word `export` cannot be read before
that: at most it is the name itself. -/
theorem afterExport?_bind_of_name (valid : Name.isValid name = true)
    (beforeBlank : ∀ character ∈ before, Text.isBlank character = true) (rest : Text) :
    (afterExport? (name ++ (before ++ '=' :: rest))).bind assignment? = none := by
  cases found : afterExport? (name ++ (before ++ '=' :: rest)) with
  | none => rfl
  | some remaining =>
      obtain ⟨first, others, equal, blank, trimmed⟩ := of_afterExport? found
      have readName :=
        Name.leading?_append valid (isLater_eq_false_of_mem_head? beforeBlank rest)
      have readExport : Name.leading? (exportWord ++ first :: others) =
          some (exportWord, first :: others) := by
        apply Name.leading?_append (by decide)
        intro character member
        cases member
        exact Text.isLater_eq_false_of_isBlank blank
      -- both readings are of the longest name, so the name is the word itself
      rw [equal, readExport] at readName
      cases before with
      | nil =>
          simp only [Option.some.injEq, Prod.mk.injEq, List.nil_append,
            List.cons.injEq] at readName
          rw [readName.2.1] at blank
          cases blank
      | cons character blanks =>
          simp only [Option.some.injEq, Prod.mk.injEq, List.cons_append,
            List.cons.injEq] at readName
          have blanksBlank := fun character member =>
            beforeBlank character (List.mem_cons_of_mem _ member)
          rw [trimmed, readName.2.2, Text.trimBlanks_append blanksBlank,
            Text.trimBlanks_cons_of_not_blank rfl]
          rfl

/-- The parts of a definition line are read back: blanks, possibly the word
`export`, a name, an equals sign between blanks, and a value. -/
theorem definition?_append {indent lead : Text}
    (indentBlank : ∀ character ∈ indent, Text.isBlank character = true)
    (isLead : IsLead lead) (valid : Name.isValid name = true)
    (beforeBlank : ∀ character ∈ before, Text.isBlank character = true)
    (afterBlank : ∀ character ∈ after, Text.isBlank character = true)
    (noLineFeed : '\n' ∉ value) :
    definition? (indent ++ (lead ++ (name ++ (before ++ '=' :: (after ++ value))))) =
      some ⟨name, value.trimBlanks⟩ := by
  have assigned := assignment?_append valid beforeBlank afterBlank noLineFeed
  have noLead : IsLead [] := .inl rfl
  rw [definition?, Text.trimBlanks_append indentBlank, isLead.trimBlanks_append valid]
  rcases isLead with empty | ⟨gap, nonempty, gapBlank, equal⟩
  · rw [empty, List.nil_append]
    simp only [afterExport?_bind_of_name valid beforeBlank, assigned, Option.none_or]
  · have noBlanks := noLead.trimBlanks_append valid (before ++ '=' :: (after ++ value))
    rw [List.nil_append] at noBlanks
    rw [equal, List.append_assoc, afterExport?_append gapBlank nonempty, noBlanks]
    simp only [Option.bind_some, assigned, Option.some_or]

end Spelled

theorem of_assignment? {text : Text} {entry : Variable}
    (found : assignment? text = some entry) :
    Name.isValid entry.name = true ∧
      ∀ first ∈ entry.value.head?, Text.isBlank first = false := by
  obtain ⟨split, leading, rest⟩ := Option.bind_eq_some_iff.mp found
  obtain ⟨name, after⟩ := split
  split at rest
  · dsimp only at rest
    split at rest
    · cases rest
    · cases rest
      exact ⟨Name.isValid_of_leading? leading,
        fun first => Text.not_blank_of_mem_head?_trimBlanks⟩
  · cases rest

theorem of_definition? {line : Text} {entry : Variable}
    (found : definition? line = some entry) :
    Name.isValid entry.name = true ∧
      ∀ first ∈ entry.value.head?, Text.isBlank first = false := by
  rcases Option.or_eq_some_iff.mp found with exported | ⟨_, plain⟩
  · obtain ⟨rest, _, assigned⟩ := Option.bind_eq_some_iff.mp exported
    exact of_assignment? assigned
  · exact of_assignment? plain

theorem classify_eq_definition_iff {allowBlank : Bool} {line : Text} {entry : Variable} :
    classify allowBlank line = .definition entry ↔
      isBlank line = false ∧ isComment line = false ∧
        definition? line = some entry ∧ Value.isValid entry.value = true := by
  unfold classify
  cases isBlank line with
  | true => cases allowBlank <;> simp
  | false =>
      cases isComment line with
      | true => simp
      | false =>
          cases definition? line with
          | none => simp
          | some other =>
              by_cases valid : Value.isValid other.value = true
              · simp only [valid, if_true, Bool.false_eq_true, if_false]
                constructor
                · intro equal
                  cases equal
                  exact ⟨trivial, trivial, rfl, valid⟩
                · rintro ⟨-, -, equal, -⟩
                  cases equal
                  rfl
              · simp only [valid, if_false, Bool.false_eq_true]
                constructor
                · intro equal
                  cases equal
                · rintro ⟨-, -, equal, other⟩
                  cases equal
                  exact absurd other valid

/-- What a line defines is a name with a value that starts with no blank. -/
theorem of_classify {allowBlank : Bool} {line : Text} {entry : Variable}
    (classified : classify allowBlank line = .definition entry) :
    Name.isValid entry.name = true ∧ Value.isValid entry.value = true ∧
      ∀ first ∈ entry.value.head?, Text.isBlank first = false := by
  obtain ⟨-, -, found, valid⟩ := classify_eq_definition_iff.mp classified
  exact ⟨(of_definition? found).1, valid, (of_definition? found).2⟩

theorem isComment_append {name indent lead : Text}
    (indentBlank : ∀ character ∈ indent, Text.isBlank character = true)
    (isLead : IsLead lead) (valid : Name.isValid name = true) (rest : Text) :
    isComment (indent ++ (lead ++ (name ++ rest))) = false := by
  obtain ⟨first, others, equal, later⟩ := isLead.exists_cons valid rest
  rw [isComment, Text.trimBlanks_append indentBlank, equal,
    Text.trimBlanks_cons_of_not_blank (Text.isBlank_eq_false_of_isLater later)]
  cases number : first == '#' with
  | false => simpa using number
  | true =>
      rw [beq_iff_eq] at number
      subst number
      cases later

/-- A line of a definition is classified by its value alone. -/
theorem classify_append (allowBlank : Bool) {name before after value indent lead : Text}
    (indentBlank : ∀ character ∈ indent, Text.isBlank character = true)
    (isLead : IsLead lead) (valid : Name.isValid name = true)
    (beforeBlank : ∀ character ∈ before, Text.isBlank character = true)
    (afterBlank : ∀ character ∈ after, Text.isBlank character = true)
    (noLineFeed : '\n' ∉ value) :
    classify allowBlank
        (indent ++ (lead ++ (name ++ (before ++ '=' :: (after ++ value))))) =
      if Value.isValid value.trimBlanks then
        .definition ⟨name, value.trimBlanks⟩
      else
        .malformed := by
  have notBlank : isBlank
      (indent ++ (lead ++ (name ++ (before ++ '=' :: (after ++ value))))) = false := by
    simp [isBlank, Text.isBlank]
  have notComment := isComment_append indentBlank isLead valid
    (before ++ '=' :: (after ++ value))
  simp only [classify, notBlank, notComment, Bool.false_eq_true, if_false,
    definition?_append indentBlank isLead valid beforeBlank afterBlank noLineFeed]

end Line

end Dotenv
