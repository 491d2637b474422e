import Dotenv.Command.CallArgument
import Mathlib.Data.List.TakeWhile

/-!
# Options of call arguments

An argument is spelled as a name alone, or as a name with a value behind an equals sign
or a colon.  No name holds such a mark, so the first one ends the name, and the option
of an argument tells its name and its value.
-/

namespace Dotenv

namespace CallArgument

/-- A letter, and after it letters, digits, underscores, dots and hyphens, all of them
ASCII. -/
inductive IsName : Text → Prop where
  | spelled {first : Char} {later : Text} (letter : first.isAlpha = true)
      (allowed : ∀ character ∈ later,
        character.isAlphanum = true ∨ character ∈ ['_', '.', '-']) :
      IsName (first :: later)

/-- The characters that end a name. -/
def isMark (character : Char) : Bool := character == '=' || character == ':'

/-- An argument is spelled as a name and a value on one line.  Where the argument is a
name alone, the value is empty. -/
inductive Spells : Text → Text → Text → Prop where
  | bare {name : Text} (named : IsName name) : Spells name name []
  | valued {name value : Text} {mark : Char} (named : IsName name)
      (marked : isMark mark = true) (sameLine : '\n' ∉ value) :
      Spells (name ++ mark :: value) name value

variable {raw other name otherName value otherValue : Text} {passed : List Text}

theorem isLater_iff {character : Char} : isLater character = true ↔
    character.isAlphanum = true ∨ character ∈ ['_', '.', '-'] := by
  simp [isLater, or_assoc]

theorem isLater_of_isAlpha {character : Char} (letter : character.isAlpha = true) :
    isLater character = true := by
  simp [isLater, Char.isAlphanum, letter]

theorem isLater_eq_false_of_isMark {character : Char} (marked : isMark character = true) :
    isLater character = false := by
  rcases Bool.or_eq_true_iff.mp marked with equals | colon
  · rw [beq_iff_eq.mp equals]
    rfl
  · rw [beq_iff_eq.mp colon]
    rfl

theorem isName_of_all {first : Char} {later : Text} (letter : first.isAlpha = true)
    (allowed : later.all isLater = true) : IsName (first :: later) :=
  .spelled letter fun character member =>
    isLater_iff.mp (List.all_eq_true.mp allowed character member)

theorem IsName.isLater_of_mem (named : IsName name) {character : Char}
    (member : character ∈ name) : isLater character = true := by
  cases named with
  | spelled letter allowed =>
      rcases List.mem_cons.mp member with equal | member
      · exact equal ▸ isLater_of_isAlpha letter
      · exact isLater_iff.mpr (allowed character member)

theorem IsName.not_isMark_of_mem (named : IsName name) {character : Char}
    (member : character ∈ name) : (!isMark character) = true := by
  cases marked : isMark character with
  | false => rfl
  | true =>
      have later := named.isLater_of_mem member
      rw [isLater_eq_false_of_isMark marked] at later
      cases later

theorem IsName.head?_ne_hyphen (named : IsName name) : name.head? ≠ some '-' := by
  cases named with
  | spelled letter allowed =>
      intro hyphen
      cases hyphen
      cases letter

/-- The name is what stands before the first mark, and the value all that stands behind
it. -/
theorem Spells.cut (spelled : Spells raw name value) :
    name = raw.takeWhile (!isMark ·) ∧ value = (raw.dropWhile (!isMark ·)).tail := by
  cases spelled with
  | bare named =>
      have unmarked : ∀ character ∈ raw, (!isMark character) = true :=
        fun _ member => named.not_isMark_of_mem member
      exact ⟨(List.takeWhile_eq_self_iff.mpr unmarked).symm,
        by rw [List.dropWhile_eq_nil_iff.mpr unmarked, List.tail_nil]⟩
  | valued named marked sameLine =>
      have unmarked : ∀ character ∈ name, (!isMark character) = true :=
        fun _ member => named.not_isMark_of_mem member
      rw [List.takeWhile_append_of_pos unmarked, List.dropWhile_append_of_pos unmarked]
      simp [marked]

theorem options?_of_isName (named : IsName name) : options? name = some (option name []) := by
  cases named with
  | @spelled first later letter allowed =>
      have all : ∀ character ∈ later, isLater character = true :=
        fun character member => isLater_iff.mpr (allowed character member)
      rw [options?, List.dropWhile_eq_nil_iff.mpr all, List.takeWhile_eq_self_iff.mpr all]
      simp only [letter, if_true]

theorem options?_append_mark (named : IsName name) {mark : Char} (marked : isMark mark = true)
    (sameLine : '\n' ∉ value) :
    options? (name ++ mark :: value) = some (option name value) := by
  have stops := isLater_eq_false_of_isMark marked
  cases named with
  | @spelled first later letter allowed =>
      have all : ∀ character ∈ later, isLater character = true :=
        fun character member => isLater_iff.mpr (allowed character member)
      have oneLine : Text.hasLineFeed value = false := by
        simpa [Text.hasLineFeed] using sameLine
      have dropped : (later ++ mark :: value).dropWhile isLater = mark :: value := by
        rw [List.dropWhile_append_of_pos all, List.dropWhile_cons_of_neg (by simp [stops])]
      have taken : (later ++ mark :: value).takeWhile isLater = later := by
        rw [List.takeWhile_append_of_pos all, List.takeWhile_cons_of_neg (by simp [stops]),
          List.append_nil]
      have accepted : (mark == '=' || mark == ':') = true := marked
      rw [List.cons_append, options?, dropped, taken]
      simp [letter, accepted, oneLine]

theorem Spells.options?_eq (spelled : Spells raw name value) :
    options? raw = some (option name value) := by
  cases spelled with
  | bare named => exact options?_of_isName named
  | valued named marked sameLine => exact options?_append_mark named marked sameLine

theorem exists_spells_of_options? (accepted : options? raw = some passed) :
    ∃ name value, Spells raw name value := by
  cases raw with
  | nil => cases accepted
  | cons first rest =>
      rw [options?] at accepted
      split at accepted
      · rename_i letter
        have named : IsName (first :: rest.takeWhile isLater) :=
          isName_of_all letter List.all_takeWhile
        have joined := List.takeWhile_append_dropWhile (p := isLater) (l := rest)
        split at accepted
        · rename_i nothing
          rw [nothing, List.append_nil] at joined
          rw [joined] at named
          exact ⟨first :: rest, [], .bare named⟩
        · rename_i mark value found
          split at accepted
          · rename_i legal
            obtain ⟨marked, oneLine⟩ := Bool.and_eq_true_iff.mp legal
            have sameLine : '\n' ∉ value := by simpa [Text.hasLineFeed] using oneLine
            refine ⟨first :: rest.takeWhile isLater, value, ?_⟩
            have spelled := Spells.valued named marked sameLine
            rwa [List.cons_append, ← found, joined] at spelled
          · cases accepted
      · cases accepted

/-- A name begins with a letter, so its dashes can be told from it. -/
theorem dashed_inj (named : IsName name) (otherNamed : IsName otherName)
    (equal : (if name.length = 1 then ['-'] else ['-', '-']) ++ name =
      (if otherName.length = 1 then ['-'] else ['-', '-']) ++ otherName) :
    name = otherName := by
  have notHyphen := named.head?_ne_hyphen
  have otherNotHyphen := otherNamed.head?_ne_hyphen
  split at equal <;> split at equal
  · exact (List.cons.inj equal).2
  · have mixed : name = '-' :: otherName := (List.cons.inj equal).2
    exact absurd (by rw [mixed, List.head?_cons]) notHyphen
  · have mixed : '-' :: name = otherName := (List.cons.inj equal).2
    exact absurd (by rw [← mixed, List.head?_cons]) otherNotHyphen
  · exact (List.cons.inj (List.cons.inj equal).2).2

theorem option_eq (name value : Text) :
    option name value =
      ((if name.length = 1 then ['-'] else ['-', '-']) ++ name) ::
        if value = [] then [] else [value] := by
  simp [option]

theorem option_inj (named : IsName name) (otherNamed : IsName otherName) :
    option name value = option otherName otherValue ↔
      name = otherName ∧ value = otherValue := by
  constructor
  · intro equal
    rw [option_eq, option_eq] at equal
    obtain ⟨dashed, passed⟩ := List.cons.inj equal
    refine ⟨dashed_inj named otherNamed dashed, ?_⟩
    split at passed <;> split at passed
    · rename_i empty otherEmpty
      rw [empty, otherEmpty]
    · cases passed
    · cases passed
    · exact (List.cons.inj passed).1
  · rintro ⟨rfl, rfl⟩
    rfl

theorem Spells.isName (spelled : Spells raw name value) : IsName name := by
  cases spelled with
  | bare named => exact named
  | valued named marked sameLine => exact named

/-- An argument stands for options exactly when it is spelled as a name and a value.  The
first equals sign or colon parts them, and they become an option of the name, which is short
for a single letter, and the value as it is unless it is empty.  Two such arguments stand for
the same options exactly when their names and values are the same. -/
theorem options?_tells_name_and_value (raw : Text) :
    ((options? raw).isSome = true ↔ ∃ name value, Spells raw name value) ∧
    (∀ name value, Spells raw name value →
      name = raw.takeWhile (!isMark ·) ∧ value = (raw.dropWhile (!isMark ·)).tail ∧
      options? raw = some
        (((if name.length = 1 then ['-'] else ['-', '-']) ++ name) ::
          if value = [] then [] else [value])) ∧
    ∀ name value other otherName otherValue,
      Spells raw name value → Spells other otherName otherValue →
        (options? raw = options? other ↔ name = otherName ∧ value = otherValue) := by
  refine ⟨⟨?_, ?_⟩, ?_, ?_⟩
  · intro accepted
    obtain ⟨passed, equal⟩ := Option.isSome_iff_exists.mp accepted
    exact exists_spells_of_options? equal
  · rintro ⟨name, value, spelled⟩
    rw [spelled.options?_eq]
    rfl
  · intro name value spelled
    obtain ⟨before, behind⟩ := spelled.cut
    exact ⟨before, behind, by rw [spelled.options?_eq, option_eq]⟩
  · intro name value other otherName otherValue spelled otherSpelled
    rw [spelled.options?_eq, otherSpelled.options?_eq, Option.some.injEq]
    exact option_inj spelled.isName otherSpelled.isName

/-- The first of several marks parts name and value, whichever mark it is, and a mark with
nothing behind it says nothing. -/
theorem options?_tells_name_and_value_between_marks :
    let name := "log.level".toList
    let value := "a=b: c".toList
    let long := ['v', 'v']
    Spells (name ++ '=' :: value) name value ∧ Spells (name ++ ':' :: value) name value ∧
      Spells (long ++ [':']) long [] ∧ Spells ['v'] ['v'] [] ∧
      options? (name ++ '=' :: value) = some ["--log.level".toList, value] ∧
      options? (name ++ ':' :: value) = options? (name ++ '=' :: value) ∧
      options? (long ++ [':']) = options? long ∧
      options? ['v'] ≠ options? long := by
  intro name value long
  have named : IsName name := isName_of_all (by decide) (by decide)
  have longNamed : IsName long := isName_of_all (by decide) (by decide)
  have equals : Spells (name ++ '=' :: value) name value :=
    .valued named (by decide) (by decide)
  have colon : Spells (name ++ ':' :: value) name value :=
    .valued named (by decide) (by decide)
  have empty : Spells (long ++ [':']) long [] := .valued longNamed (by decide) (by decide)
  have short : Spells ['v'] ['v'] [] := .bare (isName_of_all (by decide) (by decide))
  obtain ⟨-, told, sameAs⟩ := options?_tells_name_and_value (name ++ '=' :: value)
  obtain ⟨-, -, sameAsLong⟩ := options?_tells_name_and_value long
  refine ⟨equals, colon, empty, short, (told _ _ equals).2.2, ?_, ?_, ?_⟩
  · exact ((sameAs _ _ _ _ _ equals colon).mpr ⟨rfl, rfl⟩).symm
  · exact ((sameAsLong _ _ _ _ _ (.bare longNamed) empty).mpr ⟨rfl, rfl⟩).symm
  · intro equal
    have same := (sameAsLong _ _ _ _ _ (.bare longNamed) short).mp equal.symm
    exact absurd same.1 (by decide)

end CallArgument

end Dotenv
