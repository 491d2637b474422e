import Dotenv.Fault

/-!
# Byte streams

A stream is the list of what successive reads of a source do.  Lines are cut
from it: a line ends after a line feed, at a read that delivers nothing, or at
the end of the stream.  A line read retries an interrupted read, and loses what
it has gathered when a read fails otherwise.
-/

namespace Dotenv

/-- What one read of a source does: it delivers bytes, or none to report an end,
or it fails. -/
inductive ReadEvent where
  | data (bytes : List UInt8)
  | failure (error : IoError)
  deriving DecidableEq, Repr

/-- What successive reads do.  After the last event a read delivers nothing. -/
abbrev Stream := List ReadEvent

namespace Stream

def lineFeed : UInt8 := 0x0A

def carriageReturn : UInt8 := 0x0D

/-- The stream that delivers bytes in one read. -/
def ofBytes (bytes : List UInt8) : Stream := [.data bytes]

/-- Cut bytes after their first line feed. -/
def cutLine? : List UInt8 → Option (List UInt8 × List UInt8)
  | [] => none
  | byte :: rest =>
    if byte == lineFeed then
      some ([byte], rest)
    else
      (cutLine? rest).map fun parts => (byte :: parts.1, parts.2)

/-- The stream that delivers bytes before what it does next.  No bytes are no
read. -/
def deliver (bytes : List UInt8) (stream : Stream) : Stream :=
  if bytes.isEmpty then stream else .data bytes :: stream

/-- Read one line.  The outcome is the line with its line feed, or no bytes where no
line is left.  What reads have delivered of a line is lost when a later read of it
fails. -/
def readLine : Stream → Except IoError (List UInt8) × Stream
  | [] => (.ok [], [])
  | .failure error :: rest =>
    if error.kind = .interrupted then readLine rest else (.error error, rest)
  | .data bytes :: rest =>
    if bytes.isEmpty then
      (.ok [], rest)
    else
      match cutLine? bytes with
      | some (line, remaining) => (.ok line, deliver remaining rest)
      | none =>
        let later := readLine rest
        (later.1.map (bytes ++ ·), later.2)

/-- The size of what is left in a stream: each event counts once, and each byte
of data. -/
def size : Stream → Nat
  | [] => 0
  | .failure _ :: rest => size rest + 1
  | .data bytes :: rest => size rest + bytes.length + 1

@[simp]
theorem size_nil : size [] = 0 := rfl

theorem append_of_cutLine? {bytes line remaining : List UInt8}
    (found : cutLine? bytes = some (line, remaining)) : line ++ remaining = bytes := by
  induction bytes generalizing line remaining with
  | nil => simp [cutLine?] at found
  | cons byte rest ih =>
    unfold cutLine? at found
    split at found
    · cases found
      rfl
    · obtain ⟨parts, inner, equal⟩ := Option.map_eq_some_iff.mp found
      cases equal
      simp [ih inner]

theorem ne_nil_of_cutLine? {bytes line remaining : List UInt8}
    (found : cutLine? bytes = some (line, remaining)) : line ≠ [] := by
  cases bytes with
  | nil => simp [cutLine?] at found
  | cons byte rest =>
    unfold cutLine? at found
    split at found
    · cases found
      simp
    · obtain ⟨parts, _, equal⟩ := Option.map_eq_some_iff.mp found
      cases equal
      simp

theorem size_deliver_le (bytes : List UInt8) (stream : Stream) :
    size (deliver bytes stream) ≤ size stream + bytes.length + 1 := by
  unfold deliver
  split
  · omega
  · simp [size]

theorem size_readLine_le (stream : Stream) :
    stream.readLine.2.size ≤ stream.size ∧
      (stream ≠ [] → stream.readLine.2.size < stream.size) := by
  induction stream with
  | nil => simp [readLine]
  | cons event rest ih =>
    have bound := ih.1
    cases event with
    | failure error =>
      unfold readLine
      split
      · simp only [size]
        omega
      · simp only [size]
        omega
    | data bytes =>
      unfold readLine
      split
      · simp only [size]
        omega
      · split
        · rename_i line remaining found
          have delivered := size_deliver_le remaining rest
          have joined := congrArg List.length (append_of_cutLine? found)
          have positive := List.length_pos_iff.mpr (ne_nil_of_cutLine? found)
          rw [List.length_append] at joined
          simp only [size]
          omega
        · simp only [size]
          omega

/-- A line that is read makes the stream smaller. -/
theorem size_readLine_lt {stream rest : Stream} {line : List UInt8}
    (read : stream.readLine = (.ok line, rest)) (nonempty : line ≠ []) :
    rest.size < stream.size := by
  have bound := (size_readLine_le stream).2
  rw [read] at bound
  refine bound fun empty => nonempty ?_
  subst empty
  cases read
  rfl

/-- What a stream yields line by line: the lines up to the first that is empty or
fails, and the error of one that fails. -/
structure Transcript where
  lines : List (List UInt8)
  failure : Option IoError
  deriving DecidableEq, Repr

/-- Read lines until one is empty or fails. -/
def transcript (stream : Stream) : Transcript :=
  match _read : stream.readLine with
  | (.error error, _) => ⟨[], some error⟩
  | (.ok [], _) => ⟨[], none⟩
  | (.ok (first :: others), rest) =>
    let later := transcript rest
    ⟨(first :: others) :: later.lines, later.failure⟩
termination_by stream.size
decreasing_by exact size_readLine_lt _read (List.cons_ne_nil first others)

/-- A line without its line feed and without a carriage return before that. -/
def withoutTerminator (line : List UInt8) : List UInt8 :=
  if line.getLast? = some lineFeed then
    let body := line.dropLast
    if body.getLast? = some carriageReturn then body.dropLast else body
  else
    line

end Stream

end Dotenv
