import Dotenv.Expansion
import Dotenv.Stream
import Dotenv.Text.Utf8

/-!
# Substitution in a stream

A substitution puts values in place of references in a byte stream, line by line
and only as far as its reader asks.  The first line that fails is reported once
everything before it is delivered, and by every read after that.
-/

namespace Dotenv

/-- What a substitution works with: the map of values, whether references have to
be strict, and the origin of the stream. -/
structure SubstitutionRule where
  map : VariableMap
  strict : Bool
  origin : Text

/-- Substitute in one line, which has a given number. -/
def SubstitutionRule.substituteLine (rule : SubstitutionRule) (number : Nat)
    (line : List UInt8) : Except Fault (List UInt8) :=
  match Utf8.decode line with
  | .error fault =>
    .error (.ioFailure (Fault.lineOrigin rule.origin number) ⟨.invalidData, fault.message⟩)
  | .ok text =>
    match text.resolve rule.strict rule.map none rule.origin with
    | .error fault => .error (fault.onLine number rule.origin)
    | .ok substituted => .ok (Utf8.encode substituted)

/-- A substitution under way: what is left of the stream, the substituted bytes that
were not read yet, the number of lines pulled, and whether and why no more are pulled. -/
structure Substitution where
  stream : Stream
  ready : List UInt8
  lineCount : Nat
  ended : Bool
  fault : Option Fault
  deriving DecidableEq, Repr

namespace Substitution

/-- The substitution in a stream before its first read. -/
def start (stream : Stream) : Substitution := ⟨stream, [], 0, false, none⟩

/-- Whether lines can still be pulled. -/
def isOpen (substitution : Substitution) : Bool :=
  !substitution.ended && substitution.fault.isNone

/-- Pull one line and substitute in it. -/
def advance (rule : SubstitutionRule) (substitution : Substitution) : Substitution :=
  match substitution.stream.readLine with
  | (.error error, rest) =>
    { substitution with stream := rest, fault := some (.ioFailure rule.origin error) }
  | (.ok [], rest) => { substitution with stream := rest, ended := true }
  | (.ok (first :: others), rest) =>
    let number := substitution.lineCount + 1
    match rule.substituteLine number (first :: others) with
    | .error fault =>
      { substitution with stream := rest, lineCount := number, fault := some fault }
    | .ok bytes =>
      { substitution with
        stream := rest, lineCount := number, ready := substitution.ready ++ bytes }

/-- A bound on the lines that can still be pulled. -/
def openSize (substitution : Substitution) : Nat :=
  if substitution.isOpen then substitution.stream.size + 1 else 0

theorem openSize_advance_lt (rule : SubstitutionRule) {substitution : Substitution}
    (opened : substitution.isOpen = true) :
    (substitution.advance rule).openSize < substitution.openSize := by
  have positive : substitution.openSize = substitution.stream.size + 1 := by
    simp [openSize, opened]
  rw [positive]
  unfold advance
  split
  · simp [openSize, isOpen]
  · simp [openSize, isOpen]
  · rename_i first others rest read
    have smaller := Stream.size_readLine_lt read (List.cons_ne_nil first others)
    dsimp only
    split
    · simp [openSize, isOpen]
    · unfold openSize
      split
      · simpa using smaller
      · omega

/-- Pull lines until a number of bytes is ready or no more can be pulled. -/
def fill (rule : SubstitutionRule) (wanted : Nat) (substitution : Substitution) :
    Substitution :=
  if _more : substitution.ready.length < wanted ∧ substitution.isOpen = true then
    fill rule wanted (substitution.advance rule)
  else
    substitution
termination_by substitution.openSize
decreasing_by exact openSize_advance_lt rule _more.2

/-- Take up to a number of ready bytes. -/
def take (size : Nat) (substitution : Substitution) : List UInt8 × Substitution :=
  (substitution.ready.take size,
    { substitution with ready := substitution.ready.drop size })

/-- Read up to a number of bytes.  No bytes are read at the end, or when none are
asked for. -/
def read (rule : SubstitutionRule) (size : Nat) (substitution : Substitution) :
    Except ReadError (List UInt8) × Substitution :=
  if size = 0 then
    (.ok [], substitution)
  else
    let filled := substitution.fill rule size
    if filled.ready.isEmpty then
      match filled.fault with
      | some fault => (.error (.carried fault), filled)
      | none => (.ok [], filled)
    else
      let taken := filled.take size
      (.ok taken.1, taken.2)

theorem openSize_fill_le (rule : SubstitutionRule) (wanted : Nat)
    (substitution : Substitution) :
    substitution.fill rule wanted = substitution ∨
      (substitution.fill rule wanted).openSize < substitution.openSize := by
  fun_induction fill rule wanted substitution with
  | case1 substitution more ih =>
    have smaller := openSize_advance_lt rule more.2
    rcases ih with same | less
    · rw [same]
      exact .inr smaller
    · exact .inr (Nat.lt_trans less smaller)
  | case2 => exact .inl rfl

/-- Every read that delivers something leaves less to do. -/
theorem read_decreases (rule : SubstitutionRule) {size : Nat}
    {substitution after : Substitution} {bytes : List UInt8}
    (read : substitution.read rule size = (.ok bytes, after)) (delivered : bytes ≠ []) :
    after.openSize < substitution.openSize ∨
      (after.openSize = substitution.openSize ∧
        after.ready.length < substitution.ready.length) := by
  unfold Substitution.read at read
  split at read
  · cases read
    exact absurd rfl delivered
  · rename_i positive
    dsimp only at read
    split at read
    · split at read
      · cases read
      · cases read
        exact absurd rfl delivered
    · rename_i nonempty
      cases read
      have opened : (Substitution.take size (substitution.fill rule size)).2.openSize =
          (substitution.fill rule size).openSize := rfl
      rcases openSize_fill_le rule size substitution with same | less
      · refine .inr ⟨by rw [opened, same], ?_⟩
        rw [same] at nonempty ⊢
        have some : substitution.ready ≠ [] := by simpa using nonempty
        have length := List.length_pos_iff.mpr some
        simp only [Substitution.take, List.length_drop]
        omega
      · exact .inl (by rw [opened]; exact less)

end Substitution

/-- Where substituted bytes go: a sink takes all of them, or so many before an error
refuses more. -/
inductive Sink where
  | unlimited
  | limited (capacity : Nat) (refusal : IoError)
  deriving DecidableEq, Repr

/-- The bytes that a sink takes of some, after it took a number of bytes, and the
error that refuses the rest. -/
def Sink.accept (taken : Nat) (bytes : List UInt8) : Sink → List UInt8 × Option IoError
  | .unlimited => (bytes, none)
  | .limited capacity refusal =>
    if taken + bytes.length ≤ capacity then
      (bytes, none)
    else
      (bytes.take (capacity - taken), some refusal)

/-- The bytes that reached a sink, and how many they are or why they are not
all. -/
structure Delivery where
  bytes : List UInt8
  outcome : Except Fault Nat

namespace Delivery

/-- The number of bytes that a copy reads at a time. -/
def copySize : Nat := 8192

def outputOrigin (origin : Text) : Text := "output for ".toList ++ origin

/-- A delivery after bytes that were delivered before it. -/
def precededBy (bytes : List UInt8) (delivery : Delivery) : Delivery :=
  { delivery with bytes := bytes ++ delivery.bytes }

/-- Read from a substitution and write to a sink until either ends, where the sink
took a number of bytes before. -/
def copyAfter (rule : SubstitutionRule) (sink : Sink) (taken : Nat)
    (substitution : Substitution) : Delivery :=
  match _read : substitution.read rule copySize with
  | (.error error, _) => ⟨[], .error (error.recover (outputOrigin rule.origin))⟩
  | (.ok [], _) => ⟨[], .ok taken⟩
  | (.ok (first :: others), after) =>
    match sink.accept taken (first :: others) with
    | (accepted, none) =>
      (copyAfter rule sink (taken + accepted.length) after).precededBy accepted
    | (accepted, some error) =>
      ⟨accepted, .error (.ioFailure (outputOrigin rule.origin) error)⟩
termination_by (substitution.openSize, substitution.ready.length)
decreasing_by
  have smaller := Substitution.read_decreases rule _read (List.cons_ne_nil first others)
  rcases smaller with less | ⟨same, less⟩
  · exact .left _ _ less
  · rw [same]
    exact .right _ less

end Delivery

/-- Substitute in a whole stream and copy the outcome into a sink. -/
def Stream.substituteInto (rule : SubstitutionRule) (sink : Sink) (stream : Stream) :
    Delivery :=
  Delivery.copyAfter rule sink 0 (.start stream)

end Dotenv
