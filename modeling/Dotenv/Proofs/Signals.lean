import Dotenv.Proofs.Transcript

/-!
# Signals of a stream

Where one read of a stream ends and the next one begins does not show in its lines.  What
counts is the single bytes, with the empty reads and the failures between them; a failure
that is tried again does not count either.
-/

namespace Dotenv

/-- The smallest thing that a stream can tell its reader. -/
inductive Signal where
  | byte (value : UInt8)
  | pause
  | failure (error : IoError)
  deriving DecidableEq, Repr

def ReadEvent.signals : ReadEvent → List Signal
  | .data bytes => if bytes.isEmpty then [.pause] else bytes.map .byte
  | .failure error => if error.kind = .interrupted then [] else [.failure error]

namespace Signal

/-- Read one line, signal by signal. -/
def readLine : List Signal → Except IoError (List UInt8) × List Signal
  | [] => (.ok [], [])
  | .pause :: rest => (.ok [], rest)
  | .failure error :: rest => (.error error, rest)
  | .byte value :: rest =>
    if value == Stream.lineFeed then
      (.ok [value], rest)
    else
      let later := readLine rest
      (later.1.map (value :: ·), later.2)

section Bytes

variable {bytes line remaining : List UInt8}

theorem readLine_of_cutLine? (found : Stream.cutLine? bytes = some (line, remaining))
    (rest : List Signal) :
    readLine (bytes.map .byte ++ rest) = (.ok line, remaining.map .byte ++ rest) := by
  induction bytes generalizing line remaining with
  | nil => cases found
  | cons value bytes ih =>
      unfold Stream.cutLine? at found
      by_cases isEnd : value == Stream.lineFeed
      · rw [if_pos isEnd] at found
        cases found
        simp [readLine, isEnd]
      · rw [if_neg isEnd] at found
        obtain ⟨parts, inner, equal⟩ := Option.map_eq_some_iff.mp found
        cases equal
        simp [readLine, isEnd, ih inner, Except.map]

theorem readLine_of_not_cutLine? (absent : Stream.cutLine? bytes = none)
    (rest : List Signal) :
    readLine (bytes.map .byte ++ rest) =
      ((readLine rest).1.map (bytes ++ ·), (readLine rest).2) := by
  induction bytes with
  | nil =>
      rw [List.map_nil, List.nil_append]
      cases readLine rest with
      | mk result later => cases result <;> rfl
  | cons value bytes ih =>
      unfold Stream.cutLine? at absent
      by_cases isEnd : value == Stream.lineFeed
      · rw [if_pos isEnd] at absent
        cases absent
      · rw [if_neg isEnd, Option.map_eq_none_iff] at absent
        simp only [List.map_cons, List.cons_append, readLine, isEnd, ih absent]
        cases (readLine rest).1 <;> rfl

end Bytes

end Signal

namespace Stream

def signals (stream : Stream) : List Signal := stream.flatMap ReadEvent.signals

@[simp]
theorem signals_nil : signals [] = [] := rfl

@[simp]
theorem signals_cons (event : ReadEvent) (rest : Stream) :
    signals (event :: rest) = event.signals ++ signals rest := rfl

theorem signals_data {bytes : List UInt8} (nonempty : bytes ≠ []) :
    (ReadEvent.data bytes).signals = bytes.map .byte := by
  simp [ReadEvent.signals, nonempty]

theorem signals_deliver (bytes : List UInt8) (stream : Stream) :
    signals (deliver bytes stream) = bytes.map .byte ++ signals stream := by
  by_cases empty : bytes = []
  · simp [deliver, empty]
  · simp [deliver, empty, signals_data empty]

/-- Reading a line from a stream is reading it from the signals. -/
theorem readLine_signals (stream : Stream) :
    Signal.readLine stream.signals = (stream.readLine.1, stream.readLine.2.signals) := by
  induction stream with
  | nil => rfl
  | cons event rest ih =>
      rw [signals_cons]
      cases event with
      | failure error =>
          by_cases again : error.kind = .interrupted
          · simpa [ReadEvent.signals, readLine, again] using ih
          · simp [ReadEvent.signals, readLine, again, Signal.readLine]
      | data bytes =>
          by_cases empty : bytes = []
          · simp [ReadEvent.signals, readLine, empty, Signal.readLine]
          · rw [signals_data empty]
            cases cut : cutLine? bytes with
            | some parts =>
                rw [Signal.readLine_of_cutLine? cut]
                simp [readLine, empty, cut, signals_deliver]
            | none =>
                rw [Signal.readLine_of_not_cutLine? cut, ih]
                simp [readLine, empty, cut]

theorem exists_readLine {stream : Stream} {result : Except IoError (List UInt8)}
    {later : List Signal} (read : Signal.readLine stream.signals = (result, later)) :
    ∃ rest, stream.readLine = (result, rest) ∧ rest.signals = later := by
  rw [readLine_signals] at read
  obtain ⟨sameResult, sameLater⟩ := Prod.mk.inj read
  exact ⟨stream.readLine.2, Prod.ext sameResult rfl, sameLater⟩

section Same

variable {first second : Stream} (same : first.signals = second.signals)

include same

/-- Streams with the same signals give the same line and go on with the same signals. -/
theorem readLine_congr {result : Except IoError (List UInt8)} {rest : Stream}
    (read : first.readLine = (result, rest)) :
    ∃ others, second.readLine = (result, others) ∧ others.signals = rest.signals := by
  apply exists_readLine
  rw [← same, readLine_signals, read]

theorem transcript_congr : first.transcript = second.transcript := by
  induction size : first.size using Nat.strongRecOn generalizing first second with
  | ind size ih =>
      cases read : first.readLine with
      | mk result rest =>
          obtain ⟨others, otherRead, sameRest⟩ := readLine_congr same read
          cases result with
          | error error => rw [transcript_of_error read, transcript_of_error otherRead]
          | ok line =>
              by_cases last : line = []
              · subst last
                rw [transcript_of_end read, transcript_of_end otherRead]
              · have smaller := size_readLine_lt read last
                rw [transcript_of_line read last, transcript_of_line otherRead last,
                  ih _ (size ▸ smaller) sameRest.symm rfl]

end Same

/-- Bytes alone are cut after each line feed, whatever reads they come from. -/
theorem transcript_of_bytes {stream : Stream} {bytes : List UInt8}
    (own : stream.signals = bytes.map .byte) :
    stream.transcript = ⟨cutAfter endsLine bytes, none⟩ := by
  induction length : bytes.length using Nat.strongRecOn generalizing stream bytes with
  | ind length ih =>
      have whole : stream.signals = bytes.map .byte ++ [] := by rw [own, List.append_nil]
      cases cut : cutLine? bytes with
      | none =>
          have line := Signal.readLine_of_not_cutLine? cut []
          rw [← whole] at line
          obtain ⟨rest, read, ended⟩ := exists_readLine line
          rw [Signal.readLine, Except.map, List.append_nil] at read
          by_cases empty : bytes = []
          · subst empty
            exact transcript_of_end read
          · have nothing : rest.transcript = transcript [] := transcript_congr ended
            rw [transcript_of_line read empty, nothing, transcript_nil,
              cutAfter_of_no_end (no_end_of_cutLine? cut) empty]
      | some parts =>
          obtain ⟨line, remaining⟩ := parts
          have lineRead := Signal.readLine_of_cutLine? cut []
          rw [← whole, List.append_nil] at lineRead
          obtain ⟨rest, read, restOwn⟩ := exists_readLine lineRead
          have nonempty := ne_nil_of_cutLine? cut
          have joined := congrArg List.length (append_of_cutLine? cut)
          have positive := List.length_pos_iff.mpr nonempty
          rw [List.length_append] at joined
          rw [transcript_of_line read nonempty, cutAfter_of_cutLine? cut,
            ih remaining.length (by omega) restOwn rfl]

theorem signals_ofChunks {chunks : List (List UInt8)} (nonempty : ∀ chunk ∈ chunks, chunk ≠ []) :
    (ofChunks chunks).signals = chunks.flatten.map .byte := by
  induction chunks with
  | nil => rfl
  | cons chunk rest ih =>
      obtain ⟨own, others⟩ := List.forall_mem_cons.mp nonempty
      rw [List.flatten_cons, List.map_append, ← ih others, ← signals_data own]
      rfl

theorem transcript_chunks {chunks : List (List UInt8)}
    (nonempty : ∀ chunk ∈ chunks, chunk ≠ []) :
    (ofChunks chunks).transcript = ⟨cutAfter endsLine chunks.flatten, none⟩ :=
  transcript_of_bytes (signals_ofChunks nonempty)

theorem transcript_ofBytes (bytes : List UInt8) :
    (ofBytes bytes).transcript = ⟨cutAfter endsLine bytes, none⟩ := by
  by_cases empty : bytes = []
  · subst empty
    exact transcript_of_end rfl
  · exact transcript_of_bytes (by rw [ofBytes, signals_cons, signals_data empty]; simp)

end Stream

end Dotenv
