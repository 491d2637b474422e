import Dotenv.Settings
import Dotenv.Text.Utf8.Exact
import Mathlib

/-!
# Changes of settings

A variable of the environment says nothing, spells a truth value, or is refused.  Settings
are taken over without a fault exactly when neither of their variables is refused, and then
each is what its variable spells, or as it was where the variable says nothing.  The first
setting is written before the second variable is read, so a fault leaves the settings as
they were unless the first variable turned its setting over and only then the second one
was refused.
-/

namespace Dotenv

namespace Text

/-- A text is a word with white space around it, and the word starts and ends with something
else. -/
inductive IsPadded : Text → Text → Prop where
  | around {before word after : Text}
      (blankBefore : ∀ character ∈ before, isWhiteSpace character = true)
      (blankAfter : ∀ character ∈ after, isWhiteSpace character = true)
      (starts : ∀ first ∈ word.head?, isWhiteSpace first = false)
      (ends : ∀ last ∈ word.getLast?, isWhiteSpace last = false) :
      IsPadded (before ++ word ++ after) word

theorem dropWhile_of_starts {word : Text} (rest : Text) (nonempty : word ≠ [])
    (starts : ∀ first ∈ word.head?, isWhiteSpace first = false) :
    (word ++ rest).dropWhile isWhiteSpace = word ++ rest := by
  cases word with
  | nil => exact absurd rfl nonempty
  | cons first later =>
      have visible : isWhiteSpace first = false := starts first rfl
      exact List.dropWhile_cons_of_neg (by simp [visible])

theorem isPadded_trimmed (text : Text) : IsPadded text text.trimmed := by
  have cut : text.takeWhile isWhiteSpace ++ text.trimmed ++
      (text.dropWhile isWhiteSpace).rtakeWhile isWhiteSpace = text := by
    rw [List.append_assoc]
    exact (congrArg (_ ++ ·) List.rdropWhile_append_rtakeWhile).trans
      List.takeWhile_append_dropWhile
  have starts : ∀ first ∈ text.trimmed.head?, isWhiteSpace first = false := by
    intro first isFirst
    obtain ⟨rest, whole⟩ : text.trimmed <+: text.dropWhile isWhiteSpace :=
      List.rdropWhile_prefix isWhiteSpace _
    have visible := List.head?_dropWhile_not isWhiteSpace text
    rwa [← whole, List.head?_append, isFirst, Option.some_or] at visible
  have ends : ∀ last ∈ text.trimmed.getLast?, isWhiteSpace last = false := by
    intro last isLast
    obtain ⟨nonempty, equal⟩ := List.mem_getLast?_eq_getLast isLast
    have visible := List.rdropWhile_last_not isWhiteSpace _ nonempty
    rw [equal]
    exact Bool.eq_false_iff.mpr visible
  have blankBefore : ∀ character ∈ text.takeWhile isWhiteSpace,
      isWhiteSpace character = true := fun _ => List.mem_takeWhile_imp
  have blankAfter : ∀ character ∈ (text.dropWhile isWhiteSpace).rtakeWhile isWhiteSpace,
      isWhiteSpace character = true := fun _ => List.mem_rtakeWhile_imp
  have padded := IsPadded.around blankBefore blankAfter starts ends
  rwa [cut] at padded

/-- Only a blank text has no word in its white space. -/
theorem isPadded_nil_iff {text : Text} :
    IsPadded text [] ↔ ∀ character ∈ text, isWhiteSpace character = true := by
  constructor
  · rintro ⟨blankBefore, blankAfter, -, -⟩ character member
    rw [List.append_nil, List.mem_append] at member
    exact member.elim (blankBefore character) (blankAfter character)
  · intro blank
    have padded : IsPadded (text ++ [] ++ []) [] :=
      .around blank (by simp) (by simp) (by simp)
    rwa [List.append_nil, List.append_nil] at padded

/-- Trimming finds the word in its white space. -/
theorem trimmed_eq_iff {text word : Text} : text.trimmed = word ↔ IsPadded text word := by
  constructor
  · intro equal
    exact equal ▸ isPadded_trimmed text
  · intro padded
    by_cases empty : word = []
    · have blank := isPadded_nil_iff.mp (empty ▸ padded)
      rw [trimmed, empty, List.dropWhile_eq_nil_iff.mpr blank]
      rfl
    · obtain ⟨blankBefore, blankAfter, starts, ends⟩ := padded
      have startsReversed : ∀ first ∈ word.reverse.head?, isWhiteSpace first = false := by
        rwa [List.head?_reverse]
      have kept := dropWhile_of_starts [] (mt List.reverse_eq_nil_iff.mp empty) startsReversed
      rw [List.append_nil] at kept
      rw [trimmed, List.append_assoc, List.dropWhile_append_of_pos blankBefore,
        dropWhile_of_starts _ empty starts, List.reverse_append,
        List.dropWhile_append_of_pos fun character member =>
          blankAfter character (List.mem_reverse.mp member),
        kept, List.reverse_reverse]

theorem trimmed_eq_nil_iff {text : Text} :
    text.trimmed = [] ↔ ∀ character ∈ text, isWhiteSpace character = true :=
  trimmed_eq_iff.trans isPadded_nil_iff

/-- A text is a word, each letter of it written small or as a capital. -/
def IsWrittenAs (text word : Text) : Prop :=
  List.Forall₂ (fun character letter => character = letter ∨ character = letter.toUpper)
    text word

theorem toLower_eq_iff {character letter : Char} (small : letter.isUpper = false) :
    character.toLower = letter ↔ character = letter ∨ character = letter.toUpper := by
  have own : letter.toLower = letter := Char.toLower_eq_of_not_isUpper (by simp [small])
  constructor
  · intro lower
    by_cases capital : character.isUpper
    · have notSmall := Char.not_isLower_of_isUpper capital
      rw [← lower, Char.toUpper_toLower_eq_toUpper, Char.toUpper_eq_of_not_isLower notSmall]
      exact .inr rfl
    · exact .inl ((Char.toLower_eq_of_not_isUpper capital).symm.trans lower)
  · rintro (rfl | rfl)
    · exact own
    · rw [Char.toLower_toUpper_eq_toLower, own]

theorem map_toLower_eq_iff {text word : Text}
    (small : ∀ letter ∈ word, letter.isUpper = false) :
    text.map Char.toLower = word ↔ text.IsWrittenAs word := by
  induction word generalizing text with
  | nil => simp [IsWrittenAs]
  | cons letter rest ih =>
      obtain ⟨smallLetter, smallRest⟩ := List.forall_mem_cons.mp small
      cases text with
      | nil => simp [IsWrittenAs]
      | cons character later =>
          rw [List.map_cons, List.cons.injEq, toLower_eq_iff smallLetter, ih smallRest,
            IsWrittenAs, IsWrittenAs, List.forall₂_cons]

end Text

namespace Environment

/-- A variable is set to a word, which may have white space around it. -/
def Holds (environment : Environment) (name word : Text) : Prop :=
  ∃ text : Text, environment.lookup name = some (Utf8.encode text) ∧
    text.IsPadded word ∧ word ≠ []

/-- A variable says nothing: it is unset, blank or no UTF-8. -/
inductive IsSilent (environment : Environment) (name : Text) : Prop where
  | unset (missing : environment.lookup name = none)
  | blank {text : Text} (set : environment.lookup name = some (Utf8.encode text))
      (blank : ∀ character ∈ text, Text.isWhiteSpace character = true)
  | undecodable {bytes : List UInt8} (set : environment.lookup name = some bytes)
      (noText : ∀ text, bytes ≠ Utf8.encode text)

variable {environment : Environment} {name word : Text}

theorem text?_of_encode {text : Text}
    (set : environment.lookup name = some (Utf8.encode text)) :
    environment.text? name = if text.trimmed.isEmpty then none else some text.trimmed := by
  simp only [text?, set, Option.bind_some, Utf8.decode_encode]

theorem text?_of_undecodable {bytes : List UInt8}
    (set : environment.lookup name = some bytes) (noText : ∀ text, bytes ≠ Utf8.encode text) :
    environment.text? name = none := by
  cases read : Utf8.decode bytes with
  | error fault => simp only [text?, set, Option.bind_some, read]
  | ok text => exact absurd (Utf8.decode_eq_ok_iff.mp read) (noText text)

theorem text?_of_holds (holds : environment.Holds name word) :
    environment.text? name = some word := by
  obtain ⟨text, set, padded, nonempty⟩ := holds
  rw [text?_of_encode set, Text.trimmed_eq_iff.mpr padded, if_neg]
  simpa using nonempty

theorem text?_of_isSilent (silent : environment.IsSilent name) :
    environment.text? name = none := by
  cases silent with
  | unset missing => simp only [text?, missing, Option.bind_none]
  | blank set blank =>
      rw [text?_of_encode set, Text.trimmed_eq_nil_iff.mpr blank]
      rfl
  | undecodable set noText => exact text?_of_undecodable set noText

theorem isSilent_or_holds (environment : Environment) (name : Text) :
    environment.IsSilent name ∨ ∃ word, environment.Holds name word := by
  cases set : environment.lookup name with
  | none => exact .inl (.unset set)
  | some bytes =>
      by_cases decodable : ∃ text, bytes = Utf8.encode text
      · obtain ⟨text, rfl⟩ := decodable
        by_cases empty : text.trimmed = []
        · exact .inl (.blank set (Text.trimmed_eq_nil_iff.mp empty))
        · exact .inr ⟨text.trimmed, text, set, text.isPadded_trimmed, empty⟩
      · exact .inl (.undecodable set (not_exists.mp decodable))

end Environment

namespace Settings

/-- The words for a truth value. -/
def words : Bool → List Text
  | true => ["true".toList, "1".toList]
  | false => ["false".toList, "0".toList]

/-- A text is a word for a truth value, in letters of either case. -/
def IsTruth (text : Text) (value : Bool) : Prop :=
  ∃ word ∈ words value, text.IsWrittenAs word

/-- A variable spells a truth value. -/
def Spells (environment : Environment) (name : Text) (value : Bool) : Prop :=
  ∃ word, environment.Holds name word ∧ IsTruth word value

/-- A variable is set to something that is no truth value. -/
def IsRefused (environment : Environment) (name : Text) : Prop :=
  ∃ word, environment.Holds name word ∧ ∀ value, ¬ IsTruth word value

/-- What a variable makes of a setting: the truth value that it spells, or the one that was
there if it says nothing. -/
inductive Yields (environment : Environment) (name : Text) (present : Bool) : Bool → Prop where
  | unchanged (silent : environment.IsSilent name) : Yields environment name present present
  | spelled {value : Bool} (spells : Spells environment name value) :
      Yields environment name present value

/-- The fault of a variable that is refused. -/
def refusal (name : Text) : Fault :=
  .invalidSetting name "must be true, false, 1 or 0".toList

variable {environment : Environment} {name text : Text} {present value : Bool}

theorem isUpper_eq_false_of_mem_words {word : Text} (member : word ∈ words value) :
    ∀ letter ∈ word, letter.isUpper = false := by
  have small : ((words value).all fun word => word.all fun letter => !letter.isUpper) = true := by
    cases value <;> decide
  intro letter inWord
  have smallWord := List.all_eq_true.mp small word member
  simpa using List.all_eq_true.mp smallWord letter inWord

theorem isTruth_iff : IsTruth text value ↔ text.map Char.toLower ∈ words value := by
  have lower (word : Text) (member : word ∈ words value) :
      text.IsWrittenAs word ↔ text.map Char.toLower = word :=
    (Text.map_toLower_eq_iff (isUpper_eq_false_of_mem_words member)).symm
  exact (exists_congr fun word => and_congr_right (lower word)).trans exists_eq_right'

theorem truth?_eq (text : Text) : truth? text =
    if text.map Char.toLower ∈ words true then some true
    else if text.map Char.toLower ∈ words false then some false else none := by
  simp only [truth?, words, List.mem_cons, List.not_mem_nil, or_false]

theorem truth?_eq_some_iff : truth? text = some value ↔ IsTruth text value := by
  rw [isTruth_iff, truth?_eq]
  by_cases isTrue : text.map Char.toLower ∈ words true
  · have apart : ∀ word ∈ words true, word ∉ words false := by decide
    have notFalse := apart _ isTrue
    cases value <;> simp [isTrue, notFalse]
  · cases value <;> simp [isTrue]

theorem truth?_eq_none_iff : truth? text = none ↔ ∀ value, ¬ IsTruth text value := by
  simp only [← truth?_eq_some_iff]
  exact Option.eq_none_iff_forall_ne_some

theorem readTruth_of_isSilent (silent : environment.IsSilent name) :
    readTruth environment name present = .ok present := by
  rw [readTruth, Environment.text?_of_isSilent silent]

theorem readTruth_of_spells (spells : Spells environment name value) :
    readTruth environment name present = .ok value := by
  obtain ⟨word, holds, truth⟩ := spells
  rw [readTruth, Environment.text?_of_holds holds]
  simp only [truth?_eq_some_iff.mpr truth]

theorem readTruth_of_isRefused (refused : IsRefused environment name) :
    readTruth environment name present = .error (refusal name) := by
  obtain ⟨word, holds, noTruth⟩ := refused
  rw [readTruth, Environment.text?_of_holds holds]
  simp only [truth?_eq_none_iff.mpr noTruth, refusal]

/-- A variable that is not refused yields a truth value. -/
theorem isRefused_or_yields (environment : Environment) (name : Text) (present : Bool) :
    IsRefused environment name ∨ ∃ value, Yields environment name present value := by
  rcases environment.isSilent_or_holds name with silent | ⟨word, holds⟩
  · exact .inr ⟨present, .unchanged silent⟩
  · by_cases truth : ∃ value, IsTruth word value
    · obtain ⟨value, truth⟩ := truth
      exact .inr ⟨value, .spelled ⟨word, holds, truth⟩⟩
    · exact .inl ⟨word, holds, not_exists.mp truth⟩

theorem Yields.readTruth_eq (yields : Yields environment name present value) :
    readTruth environment name present = .ok value := by
  cases yields with
  | unchanged silent => exact readTruth_of_isSilent silent
  | spelled spells => exact readTruth_of_spells spells

theorem Yields.not_isRefused (yields : Yields environment name present value) :
    ¬ IsRefused environment name := by
  intro refused
  have read := yields.readTruth_eq
  rw [readTruth_of_isRefused refused] at read
  cases read

theorem Yields.unique {other : Bool} (yields : Yields environment name present value)
    (yieldsOther : Yields environment name present other) : value = other :=
  Except.ok.inj (yields.readTruth_eq.symm.trans yieldsOther.readTruth_eq)

/-- Only a variable that spells the other truth value turns a setting over. -/
theorem Yields.ne_iff (yields : Yields environment name present value) :
    value ≠ present ↔ Spells environment name (!present) := by
  constructor
  · intro changed
    cases yields with
    | unchanged silent => exact absurd rfl changed
    | spelled spells => exact Bool.eq_not.mpr changed ▸ spells
  · intro spells
    exact Bool.eq_not.mp (yields.unique (.spelled spells))

/-- How it ends to take settings over.  The first setting is written before the second
variable is read. -/
inductive Ends (environment : Environment) (before : Settings) : Change → Prop where
  | firstRefused (refused : IsRefused environment allowBlankLinesName) :
      Ends environment before ⟨before, some (refusal allowBlankLinesName)⟩
  | secondRefused {allowBlankLines : Bool}
      (first : Yields environment allowBlankLinesName before.allowBlankLines allowBlankLines)
      (refused : IsRefused environment strictReferencesName) :
      Ends environment before
        ⟨⟨allowBlankLines, before.strictReferences⟩, some (refusal strictReferencesName)⟩
  | takenOver {after : Settings}
      (first : Yields environment allowBlankLinesName before.allowBlankLines
        after.allowBlankLines)
      (second : Yields environment strictReferencesName before.strictReferences
        after.strictReferences) :
      Ends environment before ⟨after, none⟩

theorem ends_takeOver (environment : Environment) (before : Settings) :
    Ends environment before (takeOver environment before) := by
  rcases isRefused_or_yields environment allowBlankLinesName before.allowBlankLines
    with refused | ⟨allowBlankLines, first⟩
  · rw [takeOver, readTruth_of_isRefused refused]
    exact .firstRefused refused
  rcases isRefused_or_yields environment strictReferencesName before.strictReferences
    with refused | ⟨strictReferences, second⟩
  · simp only [takeOver, first.readTruth_eq, readTruth_of_isRefused refused]
    exact .secondRefused first refused
  · simp only [takeOver, first.readTruth_eq, second.readTruth_eq]
    exact .takenOver first second

/-- A no-break space is white space, and bytes that are no UTF-8 say nothing. -/
example :
    takeOver [(allowBlankLinesName, [0xC3, 0x28]),
        (strictReferencesName, Utf8.encode "\u00A0tRuE\n".toList)] {} =
      ⟨{ strictReferences := true }, none⟩ := by
  decide +kernel

/-- The first variable turns its setting over, and the second one is refused. -/
def StopsHalfway (environment : Environment) (before : Settings) : Prop :=
  Spells environment allowBlankLinesName (!before.allowBlankLines) ∧
    IsRefused environment strictReferencesName

variable {before : Settings} {change : Change}

theorem Ends.fault_eq_none_iff (ends : Ends environment before change) :
    change.fault = none ↔ ¬ IsRefused environment allowBlankLinesName ∧
      ¬ IsRefused environment strictReferencesName := by
  cases ends with
  | firstRefused refused => simp [refused]
  | secondRefused first refused => simp [refused]
  | takenOver first second => simp [first.not_isRefused, second.not_isRefused]

theorem Ends.yields (ends : Ends environment before change) (noFault : change.fault = none) :
    Yields environment allowBlankLinesName before.allowBlankLines
      change.settings.allowBlankLines ∧
    Yields environment strictReferencesName before.strictReferences
      change.settings.strictReferences := by
  cases ends with
  | firstRefused => cases noFault
  | secondRefused => cases noFault
  | takenOver first second => exact ⟨first, second⟩

/-- After a fault the settings are as they were, but for the first one if it was turned over
before the second variable was read. -/
theorem Ends.stopsHalfway_or_keeps (ends : Ends environment before change)
    (fault : change.fault ≠ none) :
    StopsHalfway environment before ∧
        change = ⟨⟨!before.allowBlankLines, before.strictReferences⟩,
          some (refusal strictReferencesName)⟩ ∨
      ¬ StopsHalfway environment before ∧ change.settings = before := by
  cases ends with
  | firstRefused refused =>
      refine .inr ⟨fun halfway => ?_, rfl⟩
      have first : Yields environment allowBlankLinesName before.allowBlankLines _ :=
        .spelled halfway.1
      exact first.not_isRefused refused
  | @secondRefused allowBlankLines first refused =>
      by_cases same : allowBlankLines = before.allowBlankLines
      · refine .inr ⟨fun halfway => first.ne_iff.mpr halfway.1 same, ?_⟩
        rw [same]
      · refine .inl ⟨⟨first.ne_iff.mp same, refused⟩, ?_⟩
        rw [Bool.eq_not.mpr same]
  | takenOver => exact absurd rfl fault

/-- Settings are taken over without a fault exactly when neither variable is refused, and
then each is what its variable yields.  A fault leaves all settings as they were, unless the
first variable spells the opposite of its setting and the second one is refused: then the
first setting stays turned over. -/
theorem takeOver_all_or_nothing_iff (environment : Environment) (before : Settings) :
    let change := takeOver environment before
    (change.fault = none ↔ ¬ IsRefused environment allowBlankLinesName ∧
      ¬ IsRefused environment strictReferencesName) ∧
    (change.fault = none →
      Yields environment allowBlankLinesName before.allowBlankLines
        change.settings.allowBlankLines ∧
      Yields environment strictReferencesName before.strictReferences
        change.settings.strictReferences) ∧
    ((change.fault ≠ none → change.settings = before) ↔
      ¬ StopsHalfway environment before) ∧
    (StopsHalfway environment before →
      change = ⟨⟨!before.allowBlankLines, before.strictReferences⟩,
        some (refusal strictReferencesName)⟩) := by
  intro change
  have ends : Ends environment before change := ends_takeOver environment before
  have halfway (stops : StopsHalfway environment before) :
      change = ⟨⟨!before.allowBlankLines, before.strictReferences⟩,
        some (refusal strictReferencesName)⟩ := by
    have fault : change.fault ≠ none := fun noFault =>
      (ends.fault_eq_none_iff.mp noFault).2 stops.2
    exact (ends.stopsHalfway_or_keeps fault).elim And.right fun kept => absurd stops kept.1
  refine ⟨ends.fault_eq_none_iff, ends.yields, ⟨fun keeps stops => ?_, fun goesOn fault => ?_⟩,
    halfway⟩
  · rw [halfway stops] at keeps
    have same := congrArg Settings.allowBlankLines (keeps (Option.some_ne_none _))
    exact absurd same (by simp)
  · exact (ends.stopsHalfway_or_keeps fault).elim (fun stops => absurd stops.1 goesOn)
      And.right

/-- A word that is refused for the second setting comes too late for the first one. -/
theorem takeOver_leaves_first_setting :
    let environment : Environment :=
      [(allowBlankLinesName, Utf8.encode "true".toList),
        (strictReferencesName, Utf8.encode "sometimes".toList)]
    let before : Settings := {}
    (takeOver environment before).fault =
        some (.invalidSetting strictReferencesName "must be true, false, 1 or 0".toList) ∧
      (takeOver environment before).settings = { before with allowBlankLines := true } ∧
      (takeOver environment before).settings ≠ before := by
  decide +kernel

end Settings

end Dotenv
