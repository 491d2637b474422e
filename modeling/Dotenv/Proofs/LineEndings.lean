import Dotenv.Proofs.FirstBadLine

/-!
# Line endings

A line may end with a line feed alone or with a carriage return before it, and each line of
a text may do as it likes: what stands on the lines is the same, and so is what is read from
them.  Only a carriage return that stands there already is left alone, since one before it
would belong to the line.
-/

namespace Dotenv

namespace Text

/-- A text that stands after a character and from a position on, with a carriage return
before each line feed at a chosen position, unless one is there already. -/
def withReturnsFrom (chosen : Nat → Bool) (previous : Char) (position : Nat) : Text → Text
  | [] => []
  | first :: rest =>
    let later := withReturnsFrom chosen first (position + 1) rest
    if first == '\n' && previous != '\r' && chosen position then
      '\r' :: first :: later
    else
      first :: later

/-- A text with a carriage return before each line feed at a chosen position, unless one is
there already.  It begins as after a line feed. -/
def withReturns (chosen : Nat → Bool) (text : Text) : Text :=
  withReturnsFrom chosen '\n' 0 text

section Returns

variable (chosen : Nat → Bool) {body : Text}

theorem withReturnsFrom_of_no_lineFeed (single : '\n' ∉ body) (previous : Char)
    (position : Nat) : withReturnsFrom chosen previous position body = body := by
  induction body generalizing previous position with
  | nil => rfl
  | cons first rest ih =>
      rw [List.mem_cons, not_or] at single
      have inner : (first == '\n') = false := beq_eq_false_iff_ne.mpr (Ne.symm single.1)
      simp [withReturnsFrom, inner, ih single.2]

/-- A line keeps its characters, and gets a carriage return only where none ends it. -/
theorem withReturnsFrom_append_line (single : '\n' ∉ body) (previous : Char) (position : Nat)
    (rest : Text) :
    ∃ line, withReturnsFrom chosen previous position (body ++ '\n' :: rest) =
        line ++ '\n' :: withReturnsFrom chosen '\n' (position + body.length + 1) rest ∧
      (line = body ∨
        line = body ++ ['\r'] ∧ (previous :: body).getLast? ≠ some '\r') := by
  induction body generalizing previous position with
  | nil =>
      by_cases gains : previous != '\r' && chosen position
      · have other : previous ≠ '\r' := by
          simp only [Bool.and_eq_true, bne_iff_ne] at gains
          exact gains.1
        refine ⟨['\r'], ?_, .inr ⟨rfl, by simpa using other⟩⟩
        simp [withReturnsFrom, gains]
      · exact ⟨[], by simp [withReturnsFrom, gains], .inl rfl⟩
  | cons first body ih =>
      rw [List.mem_cons, not_or] at single
      have inner : (first == '\n') = false := beq_eq_false_iff_ne.mpr (Ne.symm single.1)
      obtain ⟨line, equal, own⟩ := ih single.2 first (position + 1)
      have next : position + (first :: body).length + 1 =
          position + 1 + body.length + 1 := by
        rw [List.length_cons]
        omega
      refine ⟨first :: line, ?_, ?_⟩
      · rw [next, List.cons_append, List.cons_append, ← equal]
        simp [withReturnsFrom, inner]
      · rcases own with same | ⟨gained, other⟩
        · exact .inl (congrArg (first :: ·) same)
        · refine .inr ⟨congrArg (first :: ·) gained, ?_⟩
          rwa [List.getLast?_cons_cons]

theorem contentLines_withReturnsFrom (position : Nat) (text : Text) :
    contentLines (withReturnsFrom chosen '\n' position text) = contentLines text := by
  induction text using induction_on_lines generalizing position with
  | empty => rfl
  | last body nonempty single => rw [withReturnsFrom_of_no_lineFeed chosen single]
  | line body rest single ih =>
      obtain ⟨line, equal, own⟩ :=
        withReturnsFrom_append_line chosen single '\n' position rest
      have lineSingle : '\n' ∉ line := by
        rcases own with same | ⟨gained, -⟩
        · rwa [same]
        · simp [gained, single]
      have content : line.withoutReturn = body.withoutReturn := by
        rcases own with same | ⟨gained, noReturn⟩
        · rw [same]
        · have plain : body.getLast? ≠ some '\r' := by
            cases body with
            | nil => simp
            | cons first body => rwa [List.getLast?_cons_cons] at noReturn
          rw [gained, withoutReturn_eq_self_iff.mpr plain]
          simp [withoutReturn]
      rw [equal, contentLines_append_line lineSingle, contentLines_append_line single,
        content, ih]

end Returns

/-- The last line of a text may be ended, in either way, where it ends with neither. -/
theorem contentLines_append_end {text : Text} (nonempty : text ≠ [])
    (unended : text.getLast? ≠ some '\n') (noReturn : text.getLast? ≠ some '\r') :
    contentLines (text ++ ['\n']) = contentLines text ∧
      contentLines (text ++ ['\r', '\n']) = contentLines text := by
  induction text using induction_on_lines with
  | empty => exact absurd rfl nonempty
  | last body nonempty single =>
      have plainly := contentLines_append_line single []
      have returned := contentLines_append_line
        (show '\n' ∉ body ++ ['\r'] by simp [single]) []
      rw [contentLines_of_no_lineFeed nonempty single]
      constructor
      · rw [plainly, withoutReturn_eq_self_iff.mpr noReturn]
        rfl
      · rw [List.append_assoc, List.singleton_append] at returned
        rw [returned, withoutReturn, if_pos (by simp), List.dropLast_concat]
        rfl
  | line body rest single ih =>
      have more : rest ≠ [] := by
        intro last
        rw [last, List.getLast?_concat] at unended
        exact unended rfl
      have sameEnd : (body ++ '\n' :: rest).getLast? = rest.getLast? := by
        rw [List.getLast?_append_of_ne_nil _ (List.cons_ne_nil _ _),
          List.getLast?_cons_of_ne_nil more]
      rw [sameEnd] at unended noReturn
      obtain ⟨plainly, returned⟩ := ih more unended noReturn
      rw [List.append_assoc, List.append_assoc, List.cons_append, List.cons_append,
        contentLines_append_line single, contentLines_append_line single,
        contentLines_append_line single, plainly, returned]
      exact ⟨rfl, rfl⟩

end Text

namespace Definitions

theorem ofText_eq_of_contentLines_eq {allowBlank : Bool} {first second : Text}
    (same : first.contentLines = second.contentLines) :
    ofText allowBlank first = ofText allowBlank second := by
  apply ofStream_eq_of_contents_eq
  rw [Stream.contents_encode, Stream.contents_encode, same]

/-- Carriage returns before whichever line feeds have none change nothing in what is read
from a text, be it definitions or a fault.  Neither does an end, of either kind, after a last
line that has none and does not end with a carriage return. -/
theorem ofText_ignores_line_ends (allowBlank : Bool) (text : Text) :
    (∀ chosen : Nat → Bool,
      ofText allowBlank (text.withReturns chosen) = ofText allowBlank text) ∧
    (text ≠ [] → text.getLast? ≠ some '\n' → text.getLast? ≠ some '\r' →
      ofText allowBlank (text ++ ['\n']) = ofText allowBlank text ∧
      ofText allowBlank (text ++ ['\r', '\n']) = ofText allowBlank text) := by
  constructor
  · intro chosen
    exact ofText_eq_of_contentLines_eq (Text.contentLines_withReturnsFrom chosen 0 text)
  · intro nonempty unended noReturn
    obtain ⟨plainly, returned⟩ := Text.contentLines_append_end nonempty unended noReturn
    exact ⟨ofText_eq_of_contentLines_eq plainly, ofText_eq_of_contentLines_eq returned⟩

/-- Backslashes before the ends of lines: the first line gets a carriage return, the blank
one gets none, the comment has one, and the last line gets an end. -/
theorem ofText_ignores_line_ends_escapes :
    let text : Text := "A=a\\\n\n# $C\r\nB=\\\r;\\".toList
    let mixed : Text := "A=a\\\r\n\n# $C\r\nB=\\\r;\\".toList
    let listed : List Variable := [⟨"A".toList, "a\\".toList⟩, ⟨"B".toList, "\\\r;\\".toList⟩]
    text.withReturns (· != 5) = mixed ∧ ofText true mixed = .ok listed ∧
      (text ≠ [] ∧ text.getLast? ≠ some '\n' ∧ text.getLast? ≠ some '\r') ∧
      ofText true (text ++ ['\r', '\n']) = .ok listed := by
  intro text mixed listed
  obtain ⟨inside, atEnd⟩ := ofText_ignores_line_ends true text
  have read : ofText true text = .ok listed := by decide +kernel
  have returned : text.withReturns (· != 5) = mixed := by decide
  have nonempty : text ≠ [] := by decide
  have unended : text.getLast? ≠ some '\n' := by decide
  have noReturn : text.getLast? ≠ some '\r' := by decide
  refine ⟨returned, ?_, ⟨nonempty, unended, noReturn⟩, ?_⟩
  · rw [← returned, inside, read]
  · rw [(atEnd nonempty unended noReturn).2, read]

end Definitions

end Dotenv
