import Dotenv.Proofs.Signals
import Dotenv.Text.Utf8.RoundTrip
import Mathlib.Data.List.Basic

/-!
# Lines of a text

Line feeds and carriage returns are single bytes that occur in no other
character.  So the lines of an encoded text are its encoded lines, and what
ends them can be taken off before or after encoding.
-/

namespace Dotenv

namespace Utf8

/-- A byte below 0x80 stands for a character of its own. -/
theorem encodeChar_of_small {character : Char} {byte : UInt8}
    (member : byte ∈ String.utf8EncodeChar character) (small : byte.toNat < 0x80) :
    String.utf8EncodeChar character = [byte] ∧ character.toNat = byte.toNat := by
  have notHigh {code lead : Nat} (low : 0x80 ≤ lead) (room : code + lead < 0x100)
      (equal : byte = UInt8.ofNat (code + lead)) : False := by
    rw [equal, toNat_ofNat room] at small
    omega
  have value : character.toNat = character.val.toNat := rfl
  unfold String.utf8EncodeChar at member ⊢
  dsimp only at member ⊢
  rw [value]
  generalize character.val.toNat = code at *
  split at member
  · rename_i one
    rw [List.mem_singleton] at member
    subst member
    exact ⟨by simp [one], (toNat_ofNat (by omega)).symm⟩
  -- every byte of a longer form has its highest bit set
  · split at member
    · simp only [List.mem_cons, List.not_mem_nil, or_false] at member
      rcases member with equal | equal <;>
        exact (notHigh (by omega) (by omega) equal).elim
    · split at member <;>
        simp only [List.mem_cons, List.not_mem_nil, or_false] at member
      · rcases member with equal | equal | equal <;>
          exact (notHigh (by omega) (by omega) equal).elim
      · rcases member with equal | equal | equal | equal <;>
          exact (notHigh (by omega) (by omega) equal).elim

/-- An encoded text ends with a small byte only where the text ends with the
character of that byte. -/
theorem getLast?_encode_eq_some_iff {character : Char} {byte : UInt8}
    (single : String.utf8EncodeChar character = [byte]) (small : byte.toNat < 0x80)
    (text : Text) :
    (encode text).getLast? = some byte ↔ text.getLast? = some character := by
  have own : character.toNat = byte.toNat :=
    (encodeChar_of_small (by simp [single]) small).2
  rcases text.eq_nil_or_concat' with empty | ⟨body, last, equal⟩
  · simp [empty]
  · subst equal
    rw [encode_append, encode_cons, encode_nil, List.append_nil, List.getLast?_concat,
      List.getLast?_append_of_ne_nil _ String.utf8EncodeChar_ne_nil]
    constructor
    · intro ends
      have other := (encodeChar_of_small (List.mem_of_getLast? ends) small).2
      rw [Char.toNat_inj.mp (other.trans own.symm)]
    · intro ends
      cases ends
      rw [single]
      rfl

theorem dropLast_encode {character : Char} {byte : UInt8}
    (single : String.utf8EncodeChar character = [byte]) {text : Text}
    (ends : text.getLast? = some character) :
    (encode text).dropLast = encode text.dropLast := by
  obtain ⟨body, equal⟩ := List.getLast?_eq_some_iff.mp ends
  rw [equal, encode_append, encode_cons, encode_nil, single]
  simp

end Utf8

namespace Text

/-- Whether a character ends a line. -/
def endsLine (character : Char) : Bool := character == '\n'

/-- The lines of a text, each with its line feed. -/
def lines (text : Text) : List Text := cutAfter endsLine text

/-- A text without a carriage return at its end. -/
def withoutReturn (text : Text) : Text :=
  if text.getLast? = some '\r' then text.dropLast else text

/-- A line without its line feed and without a carriage return before that. -/
def withoutTerminator (line : Text) : Text :=
  if line.getLast? = some '\n' then withoutReturn line.dropLast else line

/-- What stands on the lines of a text. -/
def contentLines (text : Text) : List Text := text.lines.map withoutTerminator

theorem lines_append {body : Text} (inner : '\n' ∉ body) (rest : Text) :
    lines (body ++ '\n' :: rest) = (body ++ ['\n']) :: lines rest := by
  apply cutAfter_append_end _ rfl rest
  intro character member
  have other : character ≠ '\n' := fun equal => inner (equal ▸ member)
  simpa [endsLine] using other

theorem lines_of_no_lineFeed {body : Text} (nonempty : body ≠ []) (single : '\n' ∉ body) :
    lines body = [body] := by
  apply cutAfter_of_no_end _ nonempty
  intro character member
  have other : character ≠ '\n' := fun equal => single (equal ▸ member)
  simpa [endsLine] using other

/-- A text is empty, or one line without a line feed, or a line with its line feed and
a text after it. -/
theorem induction_on_lines {motive : Text → Prop} (empty : motive [])
    (last : ∀ body, body ≠ [] → '\n' ∉ body → motive body)
    (line : ∀ body rest, '\n' ∉ body → motive rest → motive (body ++ '\n' :: rest))
    (text : Text) : motive text := by
  induction length : text.length using Nat.strongRecOn generalizing text with
  | ind size ih =>
      by_cases member : '\n' ∈ text
      · obtain ⟨body, rest, equal, inner⟩ := List.eq_append_cons_of_mem member
        subst equal length
        exact line body rest inner (ih rest.length (by simp; omega) rest rfl)
      · by_cases nothing : text = []
        · subst nothing
          exact empty
        · exact last text nothing member

theorem withoutTerminator_append (body : Text) :
    withoutTerminator (body ++ ['\n']) = body.withoutReturn := by
  simp [withoutTerminator]

theorem contentLines_of_no_lineFeed {body : Text} (nonempty : body ≠ [])
    (single : '\n' ∉ body) : contentLines body = [body] := by
  have unterminated : body.getLast? ≠ some '\n' := by
    intro ends
    exact single (List.mem_of_getLast? ends)
  rw [contentLines, lines_of_no_lineFeed nonempty single, List.map_singleton,
    withoutTerminator, if_neg unterminated]

theorem contentLines_append_line {body : Text} (single : '\n' ∉ body) (rest : Text) :
    contentLines (body ++ '\n' :: rest) = body.withoutReturn :: contentLines rest := by
  rw [contentLines, lines_append single, List.map_cons, withoutTerminator_append]
  rfl

theorem withoutReturn_append {before : Text} (noReturn : before.getLast? ≠ some '\r')
    (after : Text) : withoutReturn (before ++ after) = before ++ after.withoutReturn := by
  rcases after.eq_nil_or_concat' with empty | ⟨body, last, equal⟩
  · subst empty
    simp [withoutReturn, noReturn]
  · subst equal
    by_cases returns : last = '\r'
    · simp [withoutReturn, returns, ← List.append_assoc]
    · simp [withoutReturn, returns, ← List.append_assoc]

theorem withoutReturn_sublist {text : Text} : text.withoutReturn.Sublist text := by
  unfold withoutReturn
  split
  · exact List.dropLast_sublist text
  · exact List.Sublist.refl text

theorem exists_withoutReturn_append (text : Text) :
    ∃ ending, text = text.withoutReturn ++ ending := by
  unfold withoutReturn
  split
  · rename_i returns
    obtain ⟨body, equal⟩ := List.getLast?_eq_some_iff.mp returns
    refine ⟨['\r'], ?_⟩
    rw [equal, List.dropLast_concat]
  · exact ⟨[], (List.append_nil text).symm⟩

theorem withoutReturn_eq_self_iff {text : Text} :
    text.withoutReturn = text ↔ text.getLast? ≠ some '\r' := by
  rcases text.eq_nil_or_concat' with empty | ⟨body, last, equal⟩
  · simp [empty, withoutReturn]
  · subst equal
    by_cases returns : last = '\r'
    · simp [withoutReturn, returns]
    · simp [withoutReturn, returns]

end Text

namespace Utf8

theorem no_end_of_encodeChar {character : Char} (inner : Text.endsLine character = false) :
    ∀ byte ∈ String.utf8EncodeChar character, Stream.endsLine byte = false := by
  intro byte member
  cases isEnd : Stream.endsLine byte with
  | false => rfl
  | true =>
      have equal : byte = Stream.lineFeed := by simpa [Stream.endsLine] using isEnd
      subst equal
      have own := (encodeChar_of_small member (by decide)).2
      have same : character = '\n' := Char.toNat_inj.mp own
      simp [Text.endsLine, same] at inner

theorem lineFeed_not_mem_encode {text : Text} (single : '\n' ∉ text) :
    Stream.lineFeed ∉ encode text := by
  intro member
  obtain ⟨character, inside, byte⟩ := List.mem_flatMap.mp member
  have inner : Text.endsLine character = false := by
    rw [Text.endsLine, beq_eq_false_iff_ne]
    exact fun equal => single (equal ▸ inside)
  cases no_end_of_encodeChar inner _ byte

/-- The lines of an encoded text are its encoded lines. -/
theorem cutAfter_encode (text : Text) :
    cutAfter Stream.endsLine (encode text) = text.lines.map encode := by
  unfold Text.lines
  induction text with
  | nil => rfl
  | cons character rest ih =>
      rw [encode_cons]
      cases isEnd : Text.endsLine character with
      | true =>
          have equal : character = '\n' := by simpa [Text.endsLine] using isEnd
          subst equal
          rw [cutAfter, if_pos isEnd, List.map_cons, ← ih]
          rfl
      | false =>
          have inner := no_end_of_encodeChar isEnd
          rw [cutAfter, if_neg (by simp [isEnd])]
          cases cut : cutAfter Text.endsLine rest with
          | nil =>
              rw [cutAfter_eq_nil_iff] at cut
              subst cut
              simpa using cutAfter_of_no_end inner String.utf8EncodeChar_ne_nil
          | cons piece later =>
              rw [cut] at ih
              exact cutAfter_append_of_no_end inner ih

theorem withoutTerminator_encode (line : Text) :
    Stream.withoutTerminator (encode line) = encode line.withoutTerminator := by
  have lineFeed : String.utf8EncodeChar '\n' = [Stream.lineFeed] := by decide
  have carriageReturn : String.utf8EncodeChar '\r' = [Stream.carriageReturn] := by decide
  unfold Stream.withoutTerminator Text.withoutTerminator Text.withoutReturn
  simp only [getLast?_encode_eq_some_iff lineFeed (by decide)]
  split
  · rename_i ends
    rw [dropLast_encode lineFeed ends]
    simp only [getLast?_encode_eq_some_iff carriageReturn (by decide)]
    split
    · rename_i returns
      exact dropLast_encode carriageReturn returns
    · rfl
  · rfl

end Utf8

namespace Stream

/-- The lines that are read from an encoded text. -/
theorem transcript_encode (text : Text) :
    (ofBytes (Utf8.encode text)).transcript = ⟨text.lines.map Utf8.encode, none⟩ := by
  rw [transcript_ofBytes, Utf8.cutAfter_encode]

end Stream

end Dotenv
