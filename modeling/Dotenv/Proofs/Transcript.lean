import Dotenv.Stream

/-!
# Transcripts

A transcript follows the line reads of a stream one by one.  What a line read takes off
bytes is the first piece of the bytes cut after each line feed.
-/

namespace Dotenv

/-- A list cut after each of its elements that ends a piece. -/
def cutAfter {Element : Type} (ends : Element → Bool) :
    List Element → List (List Element)
  | [] => []
  | first :: rest =>
    if ends first then
      [first] :: cutAfter ends rest
    else
      match cutAfter ends rest with
      | [] => [[first]]
      | piece :: later => (first :: piece) :: later

section Cut

variable {Element : Type} {ends : Element → Bool} {body : List Element}

theorem cutAfter_append_end (inner : ∀ element ∈ body, ends element = false)
    {last : Element} (isEnd : ends last = true) (rest : List Element) :
    cutAfter ends (body ++ last :: rest) = (body ++ [last]) :: cutAfter ends rest := by
  induction body with
  | nil => simp [cutAfter, isEnd]
  | cons first body ih =>
      have notEnd := inner first List.mem_cons_self
      have later := ih fun element member => inner element (List.mem_cons_of_mem _ member)
      simp [cutAfter, notEnd, later]

theorem cutAfter_of_no_end (inner : ∀ element ∈ body, ends element = false)
    (nonempty : body ≠ []) : cutAfter ends body = [body] := by
  induction body with
  | nil => exact absurd rfl nonempty
  | cons first body ih =>
      have notEnd := inner first List.mem_cons_self
      by_cases last : body = []
      · simp [last, cutAfter, notEnd]
      · have later := ih (fun element member =>
          inner element (List.mem_cons_of_mem _ member)) last
        simp [cutAfter, notEnd, later]

/-- Elements that end nothing join the first piece of what comes after them. -/
theorem cutAfter_append_of_no_end (inner : ∀ element ∈ body, ends element = false)
    {rest piece : List Element} {later : List (List Element)}
    (cut : cutAfter ends rest = piece :: later) :
    cutAfter ends (body ++ rest) = (body ++ piece) :: later := by
  induction body with
  | nil => simpa using cut
  | cons first body ih =>
      have notEnd := inner first List.mem_cons_self
      have joined := ih fun element member => inner element (List.mem_cons_of_mem _ member)
      simp [cutAfter, notEnd, joined]

@[simp]
theorem cutAfter_eq_nil_iff {list : List Element} : cutAfter ends list = [] ↔ list = [] := by
  constructor
  · intro cut
    cases list with
    | nil => rfl
    | cons first rest =>
        unfold cutAfter at cut
        split at cut
        · cases cut
        · split at cut <;> cases cut
  · intro empty
    subst empty
    rfl

/-- Pieces do not reach over the end of one of them. -/
theorem cutAfter_append {first : List Element}
    (whole : ∀ last ∈ first.getLast?, ends last = true) (second : List Element) :
    cutAfter ends (first ++ second) = cutAfter ends first ++ cutAfter ends second := by
  induction first with
  | nil => rfl
  | cons element rest ih =>
      cases rest with
      | nil =>
          have isEnd := whole element rfl
          simp [cutAfter, isEnd]
      | cons next rest =>
          have joined := ih fun last member => whole last (by simpa using member)
          rw [List.cons_append, cutAfter, cutAfter.eq_2 _ element, joined]
          cases isEnd : ends element with
          | true => simp
          | false =>
              cases cut : cutAfter ends (next :: rest) with
              | nil =>
                  rw [cutAfter_eq_nil_iff] at cut
                  cases cut
              | cons piece later => simp

end Cut

namespace Stream

theorem transcript_of_error {stream rest : Stream} {error : IoError}
    (read : stream.readLine = (.error error, rest)) :
    stream.transcript = ⟨[], some error⟩ := by
  rw [transcript]
  split
  · rename_i other remaining equal
    cases read.symm.trans equal
    rfl
  · rename_i remaining equal
    cases read.symm.trans equal
  · rename_i first others remaining equal
    cases read.symm.trans equal

theorem transcript_of_end {stream rest : Stream}
    (read : stream.readLine = (.ok [], rest)) : stream.transcript = ⟨[], none⟩ := by
  rw [transcript]
  split
  · rename_i other remaining equal
    cases read.symm.trans equal
  · rfl
  · rename_i first others remaining equal
    cases read.symm.trans equal

theorem transcript_of_line {stream rest : Stream} {line : List UInt8}
    (read : stream.readLine = (.ok line, rest)) (nonempty : line ≠ []) :
    stream.transcript = ⟨line :: rest.transcript.lines, rest.transcript.failure⟩ := by
  rw [transcript]
  split
  · rename_i other remaining equal
    cases read.symm.trans equal
  · rename_i remaining equal
    cases read.symm.trans equal
    exact absurd rfl nonempty
  · rename_i first others remaining equal
    cases read.symm.trans equal
    rfl

/-- The first line of a transcript is what the next line read gives. -/
theorem exists_readLine_of_lines {stream : Stream} {line : List UInt8}
    {later : List (List UInt8)} (lines : stream.transcript.lines = line :: later) :
    ∃ remaining, stream.readLine = (.ok line, remaining) ∧ line ≠ [] ∧
      remaining.transcript.lines = later := by
  cases read : stream.readLine with
  | mk result remaining =>
      cases result with
      | error error =>
          rw [transcript_of_error read] at lines
          cases lines
      | ok found =>
          by_cases empty : found = []
          · subst empty
            rw [transcript_of_end read] at lines
            cases lines
          · rw [transcript_of_line read empty] at lines
            obtain ⟨own, others⟩ := List.cons.inj lines
            subst own
            exact ⟨remaining, rfl, empty, others⟩

/-- Whether a byte ends a line. -/
def endsLine (byte : UInt8) : Bool := byte == lineFeed

theorem cutAfter_of_cutLine? {bytes line remaining : List UInt8}
    (found : cutLine? bytes = some (line, remaining)) :
    cutAfter endsLine bytes = line :: cutAfter endsLine remaining := by
  induction bytes generalizing line remaining with
  | nil => cases found
  | cons byte rest ih =>
      unfold cutLine? at found
      by_cases isEnd : byte == lineFeed
      · rw [if_pos isEnd] at found
        cases found
        simp [cutAfter, endsLine, isEnd]
      · rw [if_neg isEnd] at found
        obtain ⟨parts, inner, equal⟩ := Option.map_eq_some_iff.mp found
        cases equal
        simp [cutAfter, endsLine, isEnd, ih inner]

theorem no_end_of_cutLine? {bytes : List UInt8} (absent : cutLine? bytes = none) :
    ∀ byte ∈ bytes, endsLine byte = false := by
  induction bytes with
  | nil => simp
  | cons byte rest ih =>
      unfold cutLine? at absent
      by_cases isEnd : byte == lineFeed
      · rw [if_pos isEnd] at absent
        cases absent
      · rw [if_neg isEnd, Option.map_eq_none_iff] at absent
        intro other member
        rcases List.mem_cons.mp member with equal | member
        · subst equal
          simpa [endsLine] using isEnd
        · exact ih absent other member

theorem transcript_nil : transcript [] = ⟨[], none⟩ :=
  transcript_of_end rfl

/-- The stream that delivers chunks of bytes in one read each. -/
def ofChunks (chunks : List (List UInt8)) : Stream := chunks.map .data

end Stream

end Dotenv
