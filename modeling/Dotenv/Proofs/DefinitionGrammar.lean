import Dotenv.Proofs.LineGrammar

/-!
# The grammar of definition lines

A value is a sequence of escapes, references and plain characters; the reader of
values skips only the dollar sign of a reference, because nothing else in a
reference is special.  A line is read as a definition exactly when it is spelled as
one, and then it is spelled as a definition of one name and one value only.
-/

namespace Dotenv

namespace Value

/-- The characters that stand for themselves inside a value. -/
def IsPlain (character : Char) : Prop :=
  character ∉ ['"', '$', '\\', '\r', '\n']

/-- What stands inside a value: escapes, references and plain characters. -/
inductive Inner : Text → Prop where
  | nil : Inner []
  | escape {escaped : Char} {rest : Text} (sameLine : escaped ≠ '\n') (later : Inner rest) :
      Inner ('\\' :: escaped :: rest)
  | reference {reference : Reference} {rest : Text}
      (valid : Name.isValid reference.name = true) (later : Inner rest) :
      Inner (reference.text ++ rest)
  | plain {character : Char} {rest : Text} (isPlain : IsPlain character)
      (later : Inner rest) : Inner (character :: rest)

/-- A value without quotes, possibly with one backslash at its end that escapes
nothing, or a value between double quotes. -/
inductive Spelled : Text → Prop where
  | bare {inner : Text} (inside : Inner inner) : Spelled inner
  | trailing {inner : Text} (inside : Inner inner) : Spelled (inner ++ ['\\'])
  | quoted {inner : Text} (inside : Inner inner) : Spelled ('"' :: inner ++ ['"'])

theorem isPlain_of_isLater {character : Char} (later : Name.isLater character = true) :
    IsPlain character := by
  intro special
  simp only [List.mem_cons, List.not_mem_nil, or_false] at special
  rcases special with equal | equal | equal | equal | equal <;> subst equal <;> cases later

theorem isInner_cons_of_isPlain (loneBackslash : Bool) {character : Char}
    (isPlain : IsPlain character) (rest : Text) :
    isInner loneBackslash (character :: rest) = isInner loneBackslash rest := by
  simp only [IsPlain, List.mem_cons, List.not_mem_nil, or_false, not_or] at isPlain
  obtain ⟨notQuote, notDollar, notBackslash, notReturn, notLineFeed⟩ := isPlain
  rw [isInner]
  · simp [notQuote, notReturn, notLineFeed]
  · intro equal
    exact absurd equal notBackslash
  · intro escaped later equal
    exact absurd equal notBackslash
  · exact notDollar

theorem isInner_append_of_isPlain (loneBackslash : Bool) {characters : Text}
    (arePlain : ∀ character ∈ characters, IsPlain character) (rest : Text) :
    isInner loneBackslash (characters ++ rest) = isInner loneBackslash rest := by
  induction characters with
  | nil => rfl
  | cons character later ih =>
      obtain ⟨own, others⟩ := List.forall_mem_cons.mp arePlain
      rw [List.cons_append, isInner_cons_of_isPlain loneBackslash own, ih others]

/-- After its dollar sign a reference has nothing but plain characters. -/
theorem exists_plain_text {reference : Reference}
    (valid : Name.isValid reference.name = true) :
    ∃ characters, reference.text = '$' :: characters ∧
      ∀ character ∈ characters, IsPlain character := by
  have namePlain : ∀ character ∈ reference.name, IsPlain character := fun character member =>
    isPlain_of_isLater (Name.isLater_of_mem valid member)
  cases braced : reference.braced with
  | true =>
      refine ⟨'{' :: reference.name ++ ['}'], by simp [Reference.text, braced], ?_⟩
      intro character member
      simp only [List.cons_append, List.mem_cons, List.mem_append, List.not_mem_nil,
        or_false] at member
      rcases member with opening | inName | closing
      · subst opening
        simp [IsPlain]
      · exact namePlain character inName
      · subst closing
        simp [IsPlain]
  | false => exact ⟨reference.name, by simp [Reference.text, braced], namePlain⟩

/-- A reference inside a value is passed over as a whole. -/
theorem isInner_text_append (loneBackslash : Bool) {reference : Reference}
    (valid : Name.isValid reference.name = true) (rest : Text) :
    isInner loneBackslash (reference.text ++ rest) = isInner loneBackslash rest := by
  have begin := Reference.begins_text_append valid rest
  obtain ⟨characters, equal, arePlain⟩ := exists_plain_text valid
  rw [equal, List.cons_append] at begin ⊢
  rw [isInner, begin, Bool.true_and, isInner_append_of_isPlain loneBackslash arePlain]

theorem Inner.isInner_append {loneBackslash : Bool} {inner tail : Text} (inside : Inner inner)
    (ending : isInner loneBackslash tail = true) :
    isInner loneBackslash (inner ++ tail) = true := by
  induction inside with
  | nil => exact ending
  | escape sameLine later ih => simp [isInner, sameLine, ih]
  | reference valid later ih =>
      rw [List.append_assoc, isInner_text_append loneBackslash valid, ih]
  | plain isPlain later ih =>
      rw [List.cons_append, isInner_cons_of_isPlain loneBackslash isPlain, ih]

theorem inner_or_trailing_of_isInner {loneBackslash : Bool} {text : Text}
    (holds : isInner loneBackslash text = true) :
    Inner text ∨
      loneBackslash = true ∧ ∃ inner, text = inner ++ ['\\'] ∧ Inner inner := by
  -- a reference is read at once, so the induction is on the length
  induction length : text.length using Nat.strongRecOn generalizing text with
  | ind size ih =>
      subst length
      fun_cases isInner loneBackslash text with
      | case1 => exact .inl .nil
      | case2 =>
          right
          exact ⟨by simpa [isInner] using holds, [], rfl, .nil⟩
      | case3 escaped rest =>
          simp only [isInner, Bool.and_eq_true, bne_iff_ne] at holds
          rcases ih rest.length (by simp only [List.length_cons]; omega) holds.2 rfl with
            inside | ⟨lone, inner, equal, inside⟩
          · exact .inl (.escape holds.1 inside)
          · refine .inr ⟨lone, '\\' :: escaped :: inner, ?_, .escape holds.1 inside⟩
            rw [equal]
            rfl
      | case4 rest =>
          have begin : Reference.begins ('$' :: rest) = true := by
            rw [isInner, Bool.and_eq_true] at holds
            exact holds.1
          obtain ⟨⟨reference, after⟩, found⟩ := Option.isSome_iff_exists.mp begin
          have valid := Reference.isValid_of_next? found
          have shorter := Reference.length_lt_of_next? found
          rw [← Reference.append_of_next? found] at holds ⊢
          rw [isInner_text_append loneBackslash valid] at holds
          rcases ih after.length shorter holds rfl with
            inside | ⟨lone, inner, equal, inside⟩
          · exact .inl (.reference valid inside)
          · refine .inr ⟨lone, reference.text ++ inner, ?_, .reference valid inside⟩
            rw [equal, List.append_assoc]
      | case5 first rest notLast notEscape notDollar =>
          rw [isInner.eq_5 _ _ _ notLast notEscape notDollar] at holds
          simp only [Bool.and_eq_true, bne_iff_ne] at holds
          obtain ⟨⟨⟨notQuote, notReturn⟩, notLineFeed⟩, holds⟩ := holds
          have isPlain : IsPlain first := by
            have notBackslash := ne_backslash notLast notEscape
            have notDollar : first ≠ '$' := notDollar
            simp [IsPlain, notQuote, notDollar, notBackslash, notReturn, notLineFeed]
          rcases ih rest.length (by simp) holds rfl with
            inside | ⟨lone, inner, equal, inside⟩
          · exact .inl (.plain isPlain inside)
          · refine .inr ⟨lone, first :: inner, ?_, .plain isPlain inside⟩
            rw [equal, List.cons_append]

/-- Where a backslash has to escape something, the inside of a value is read and no more. -/
theorem isInner_false_iff {text : Text} : isInner false text = true ↔ Inner text := by
  constructor
  · intro holds
    rcases inner_or_trailing_of_isInner holds with inside | ⟨lone, -⟩
    · exact inside
    · cases lone
  · intro inside
    have holds : isInner false (text ++ []) = true := inside.isInner_append rfl
    rwa [List.append_nil] at holds

instance (text : Text) : Decidable (Inner text) :=
  decidable_of_iff (isInner false text = true) isInner_false_iff

/-- Text between double quotes is a value exactly when it is the inside of one. -/
theorem isValid_quoted_iff {text : Text} : isValid text.quoted = true ↔ Inner text := by
  rw [← isInner_false_iff]
  simp [isValid, isQuoted, isInner, Text.quoted]

/-- The reader of values accepts what is spelled as a value. -/
theorem isValid_iff {text : Text} : isValid text = true ↔ Spelled text := by
  constructor
  · intro valid
    rcases Bool.or_eq_true_iff.mp valid with holds | quoted
    · rcases inner_or_trailing_of_isInner holds with inside | ⟨-, inner, equal, inside⟩
      · exact .bare inside
      · rw [equal]
        exact .trailing inside
    · obtain ⟨inner, equal, holds⟩ := exists_of_isQuoted quoted
      rw [equal]
      exact .quoted (isInner_false_iff.mp holds)
  · intro spelled
    cases spelled with
    | bare inside =>
        have holds : isInner true (text ++ []) = true := inside.isInner_append rfl
        rw [List.append_nil] at holds
        exact Bool.or_eq_true_iff.mpr (.inl holds)
    | trailing inside => exact Bool.or_eq_true_iff.mpr (.inl (inside.isInner_append rfl))
    | quoted inside => exact isValid_quoted_iff.mpr inside

end Value

namespace Text

theorem exists_blanks_append (text : Text) :
    ∃ blanks, (∀ character ∈ blanks, isBlank character = true) ∧
      text = blanks ++ text.trimBlanks :=
  ⟨text.takeWhile isBlank, List.all_eq_true.mp List.all_takeWhile,
    List.takeWhile_append_dropWhile.symm⟩

end Text

namespace Line

/-- A line is spelled as a definition: an indent, possibly the word `export` with
blanks after it, a name, and an equals sign between blanks before the value. -/
inductive Defines : Text → Variable → Prop where
  | spelled {indent lead gap name before after value : Text}
      (indentBlank : ∀ character ∈ indent, Text.isBlank character = true)
      (isLead : IsLead lead)
      (gapBlank : ∀ character ∈ gap, Text.isBlank character = true)
      (valid : Name.isValid name = true)
      (beforeBlank : ∀ character ∈ before, Text.isBlank character = true)
      (afterBlank : ∀ character ∈ after, Text.isBlank character = true)
      (isValue : Value.Spelled value)
      (visible : ∀ first ∈ value.head?, Text.isBlank first = false) :
      Defines (indent ++ (lead ++ (gap ++ (name ++ (before ++ '=' :: (after ++ value))))))
        ⟨name, value⟩

/-- All characters of a line are blanks. -/
def OnlyBlanks (line : Text) : Prop := ∀ character ∈ line, Text.isBlank character = true

/-- The first character of a line that is no blank is a number sign. -/
def StartsWithNumberSign (line : Text) : Prop :=
  ∃ blanks rest, (∀ character ∈ blanks, Text.isBlank character = true) ∧
    line = blanks ++ '#' :: rest

theorem isBlank_iff {line : Text} : isBlank line = true ↔ OnlyBlanks line := by
  simp [isBlank, OnlyBlanks]

theorem isComment_iff {line : Text} : isComment line = true ↔ StartsWithNumberSign line := by
  rw [isComment, beq_iff_eq]
  constructor
  · intro starts
    obtain ⟨blanks, areBlank, equal⟩ := line.exists_blanks_append
    obtain ⟨rest, trimmed⟩ := List.head?_eq_some_iff.mp starts
    exact ⟨blanks, rest, areBlank, by rw [← trimmed]; exact equal⟩
  · rintro ⟨blanks, rest, areBlank, equal⟩
    rw [equal, Text.trimBlanks_append areBlank, Text.trimBlanks_cons_of_not_blank rfl]
    rfl

theorem spelling_of_assignment? {text : Text} {entry : Variable}
    (found : assignment? text = some entry) :
    ∃ before after,
      (∀ character ∈ before, Text.isBlank character = true) ∧
      (∀ character ∈ after, Text.isBlank character = true) ∧
      text = entry.name ++ (before ++ '=' :: (after ++ entry.value)) := by
  obtain ⟨⟨name, remaining⟩, leading, assigned⟩ := Option.bind_eq_some_iff.mp found
  have named := Name.append_of_leading? leading
  obtain ⟨before, beforeBlank, trimmed⟩ := remaining.exists_blanks_append
  split at assigned
  · rename_i rest equals
    obtain ⟨after, afterBlank, restEqual⟩ := Text.exists_blanks_append rest
    dsimp only at assigned equals
    split at assigned
    · cases assigned
    · cases assigned
      refine ⟨before, after, beforeBlank, afterBlank, ?_⟩
      rw [← named, trimmed, equals]
      congr
  · cases assigned

theorem spelling_of_definition? {line : Text} {entry : Variable}
    (found : definition? line = some entry) :
    ∃ indent lead before after,
      (∀ character ∈ indent, Text.isBlank character = true) ∧ IsLead lead ∧
      (∀ character ∈ before, Text.isBlank character = true) ∧
      (∀ character ∈ after, Text.isBlank character = true) ∧
      line = indent ++ (lead ++ (entry.name ++ (before ++ '=' :: (after ++ entry.value)))) := by
  obtain ⟨indent, indentBlank, lineEqual⟩ := line.exists_blanks_append
  rcases Option.or_eq_some_iff.mp found with exported | ⟨-, plain⟩
  · obtain ⟨rest, afterWord, assigned⟩ := Option.bind_eq_some_iff.mp exported
    obtain ⟨first, others, startEqual, firstBlank, restEqual⟩ := of_afterExport? afterWord
    obtain ⟨gap, gapBlank, othersEqual⟩ := Text.exists_blanks_append others
    obtain ⟨before, after, beforeBlank, afterBlank, spelled⟩ := spelling_of_assignment? assigned
    refine ⟨indent, exportWord ++ first :: gap, before, after, indentBlank,
      .inr ⟨first :: gap, by simp, ?_, rfl⟩, beforeBlank, afterBlank, ?_⟩
    · exact List.forall_mem_cons.mpr ⟨firstBlank, gapBlank⟩
    · have trimmed : Text.trimBlanks others =
          entry.name ++ (before ++ '=' :: (after ++ entry.value)) := by
        rw [← restEqual, spelled]
      rw [lineEqual, startEqual, othersEqual, trimmed]
      simp
  · obtain ⟨before, after, beforeBlank, afterBlank, spelled⟩ := spelling_of_assignment? plain
    refine ⟨indent, [], before, after, indentBlank, .inl rfl, beforeBlank, afterBlank, ?_⟩
    rw [List.nil_append, ← spelled]
    exact lineEqual

theorem classify_eq_definition_iff_defines {allowBlank : Bool} {line : Text}
    {entry : Variable} :
    classify allowBlank line = .definition entry ↔ Defines line entry := by
  constructor
  · intro classified
    obtain ⟨-, -, found, valid⟩ := classify_eq_definition_iff.mp classified
    obtain ⟨validName, visible⟩ := of_definition? found
    obtain ⟨indent, lead, before, after, indentBlank, isLead, beforeBlank, afterBlank, equal⟩ :=
      spelling_of_definition? found
    have noGap : ∀ character ∈ ([] : Text), Text.isBlank character = true := by simp
    rw [equal]
    exact .spelled indentBlank isLead noGap validName beforeBlank afterBlank
      (Value.isValid_iff.mp valid) visible
  · intro defines
    cases defines with
    | @spelled indent lead gap name before after value indentBlank isLead gapBlank valid
        beforeBlank afterBlank isValue visible =>
        have validValue := Value.isValid_iff.mpr isValue
        have noLineFeed := Value.lineFeed_not_mem validValue
        have outcome : (if Value.isValid value.trimBlanks then
            Line.definition ⟨name, value.trimBlanks⟩ else .malformed) =
            .definition ⟨name, value⟩ := by
          rw [Text.trimBlanks_eq_self visible, if_pos validValue]
        -- the gap belongs to the blanks after the word `export`, or to the indent
        rcases isLead with empty | ⟨blanks, nonempty, areBlank, leadEqual⟩
        · have allBlank : ∀ character ∈ indent ++ gap, Text.isBlank character = true :=
            List.forall_mem_append.mpr ⟨indentBlank, gapBlank⟩
          have classified := classify_append allowBlank allBlank (.inl rfl) valid beforeBlank
            afterBlank noLineFeed
          rw [outcome, List.append_assoc] at classified
          rw [empty]
          exact classified
        · have allBlank : ∀ character ∈ blanks ++ gap, Text.isBlank character = true :=
            List.forall_mem_append.mpr ⟨areBlank, gapBlank⟩
          have isLead : IsLead (exportWord ++ (blanks ++ gap)) :=
            .inr ⟨_, by simp [nonempty], allBlank, rfl⟩
          have classified := classify_append allowBlank indentBlank isLead valid beforeBlank
            afterBlank noLineFeed
          rw [outcome, List.append_assoc, List.append_assoc] at classified
          rw [leadEqual, List.append_assoc]
          exact classified

theorem classify_of_onlyBlanks (allowBlank : Bool) {line : Text} (blanks : OnlyBlanks line) :
    classify allowBlank line = if allowBlank then .blank else .malformed := by
  rw [classify, if_pos (isBlank_iff.mpr blanks)]

theorem not_onlyBlanks_of_startsWithNumberSign {line : Text}
    (starts : StartsWithNumberSign line) : ¬ OnlyBlanks line := by
  intro empty
  obtain ⟨blanks, rest, -, equal⟩ := starts
  have blank := empty '#' (by simp [equal])
  cases blank

theorem classify_eq_comment_iff {allowBlank : Bool} {line : Text} :
    classify allowBlank line = .comment ↔ StartsWithNumberSign line := by
  constructor
  · intro classified
    unfold classify at classified
    split at classified
    · split at classified <;> cases classified
    · split at classified
      · exact isComment_iff.mp ‹_›
      · split at classified
        · split at classified <;> cases classified
        · cases classified
  · intro starts
    have notBlank : ¬ isBlank line = true := fun blank =>
      not_onlyBlanks_of_startsWithNumberSign starts (isBlank_iff.mp blank)
    rw [classify, if_neg notBlank, if_pos (isComment_iff.mpr starts)]

theorem classify_eq_blank_iff {allowBlank : Bool} {line : Text} :
    classify allowBlank line = .blank ↔ OnlyBlanks line ∧ allowBlank = true := by
  constructor
  · intro classified
    unfold classify at classified
    split at classified
    · rename_i blank
      cases allowBlank with
      | true => exact ⟨isBlank_iff.mp blank, rfl⟩
      | false => cases classified
    · split at classified
      · cases classified
      · split at classified
        · split at classified <;> cases classified
        · cases classified
  · rintro ⟨blanks, allowed⟩
    rw [classify_of_onlyBlanks allowBlank blanks, allowed]
    rfl

/-- Every line is read as what it is spelled as: as blank if all of it is, as a comment
behind a number sign, as the one definition it is spelled as, and otherwise as
malformed. -/
theorem classify_grammar (allowBlank : Bool) (line : Text) :
    (classify allowBlank line = .blank ↔ OnlyBlanks line ∧ allowBlank = true) ∧
    (classify allowBlank line = .comment ↔ StartsWithNumberSign line) ∧
    (∀ entry, classify allowBlank line = .definition entry ↔ Defines line entry) ∧
    (classify allowBlank line = .malformed ↔
      OnlyBlanks line ∧ allowBlank = false ∨
        ¬ OnlyBlanks line ∧ ¬ StartsWithNumberSign line ∧ ∀ entry, ¬ Defines line entry) ∧
    ∀ first second, Defines line first → Defines line second → first = second := by
  refine ⟨classify_eq_blank_iff, classify_eq_comment_iff,
    fun entry => classify_eq_definition_iff_defines, ⟨?_, ?_⟩, ?_⟩
  · intro malformed
    by_cases blanks : OnlyBlanks line
    · left
      rw [classify_of_onlyBlanks allowBlank blanks] at malformed
      cases allowBlank with
      | true => cases malformed
      | false => exact ⟨blanks, rfl⟩
    · refine .inr ⟨blanks, fun starts => ?_, fun entry defines => ?_⟩
      · rw [classify_eq_comment_iff.mpr starts] at malformed
        cases malformed
      · rw [classify_eq_definition_iff_defines.mpr defines] at malformed
        cases malformed
  · rintro (⟨blanks, notAllowed⟩ | ⟨notBlanks, noNumberSign, noDefinition⟩)
    · rw [classify_of_onlyBlanks allowBlank blanks, notAllowed]
      rfl
    · cases kind : classify allowBlank line with
      | definition entry =>
          exact absurd (classify_eq_definition_iff_defines.mp kind) (noDefinition entry)
      | comment => exact absurd (classify_eq_comment_iff.mp kind) noNumberSign
      | blank => exact absurd (classify_eq_blank_iff.mp kind).1 notBlanks
      | malformed => rfl
  · intro first second firstDefines secondDefines
    have firstRead : classify allowBlank line = .definition first :=
      classify_eq_definition_iff_defines.mpr firstDefines
    have secondRead : classify allowBlank line = .definition second :=
      classify_eq_definition_iff_defines.mpr secondDefines
    rw [firstRead] at secondRead
    cases secondRead
    rfl

end Line

end Dotenv
