import Dotenv.Proofs.SubstitutionRun

/-!
# Copies into a sink

However a copy chooses the sizes of its reads, a sink gets the first bytes of the output
of a substitution, as many as it takes.  The copy fails with the refusal of the sink if
there are more, and otherwise as the substitution ends.
-/

namespace Dotenv

namespace Stream

/-- A line read tries again where it was interrupted, so it fails with nothing of that kind. -/
theorem kind_ne_interrupted_of_readLine {stream rest : Stream} {error : IoError}
    (read : stream.readLine = (.error error, rest)) : error.kind ≠ .interrupted := by
  induction stream generalizing rest with
  | nil => cases read
  | cons event later ih =>
      cases event with
      | failure own =>
          unfold readLine at read
          split at read
          · exact ih read
          · rename_i final
            cases read
            exact final
      | data bytes =>
          unfold readLine at read
          split at read
          · cases read
          · split at read
            · cases read
            · cases inner : readLine later with
              | mk result remaining =>
                  rw [inner] at read
                  cases result with
                  | error found =>
                      cases read
                      exact ih inner
                  | ok line => cases read

theorem kind_ne_interrupted_of_transcript {stream : Stream} {error : IoError}
    (failed : stream.transcript.failure = some error) : error.kind ≠ .interrupted := by
  fun_induction transcript stream with
  | case1 stream own rest read =>
      cases failed
      exact kind_ne_interrupted_of_readLine read
  | case2 => cases failed
  | case3 stream first others rest read later ih => exact ih failed

end Stream

namespace SubstitutionRule

theorem Fails.kind_ne_interrupted {rule : SubstitutionRule} {number : Nat}
    {line : List UInt8} {fault : Fault} (fails : rule.Fails number line fault) :
    (ReadError.carried fault).kind ≠ .interrupted := by
  cases fails with
  | notUtf8 undecoded =>
      intro interrupted
      cases interrupted
  | stray decoded strict stray =>
      intro interrupted
      cases interrupted
  | undefined decoded clean absent =>
      intro interrupted
      cases interrupted

theorem kind_ne_interrupted_of_outcome (rule : SubstitutionRule) (stream : Stream)
    {number : Nat} {fault : Fault}
    (ending : (rule.outcome stream.transcript.failure number stream.transcript.lines).2 =
      some fault) :
    (ReadError.carried fault).kind ≠ .interrupted := by
  obtain ⟨before, rest, expansions, -, -, -, ends⟩ :=
    rule.exists_outcome stream.transcript.failure number stream.transcript.lines
  rw [ending] at ends
  cases rest with
  | nil =>
      obtain ⟨error, failed, equal⟩ := Option.map_eq_some_iff.mp (Eq.symm ends)
      rw [← equal]
      exact Stream.kind_ne_interrupted_of_transcript failed
  | cons line later =>
      obtain ⟨found, equal, fails⟩ := ends
      cases equal
      exact fails.kind_ne_interrupted

end SubstitutionRule

namespace Sink

/-- Nothing that a sink refuses is to be tried again. -/
def IsFinal : Sink → Prop
  | .unlimited => True
  | .limited _ refusal => refusal.kind ≠ .interrupted

variable {sink : Sink} {capacity taken : Nat} {refusal error : IoError}
  {bytes accepted : List UInt8}

theorem accept_limited_eq_whole_iff :
    (Sink.limited capacity refusal).accept taken bytes = (accepted, none) ↔
      taken + bytes.length ≤ capacity ∧ accepted = bytes := by
  by_cases fits : taken + bytes.length ≤ capacity
  · simp [accept, fits, eq_comm]
  · simp [accept, fits]

theorem accept_limited_eq_refused_iff :
    (Sink.limited capacity refusal).accept taken bytes = (accepted, some error) ↔
      capacity < taken + bytes.length ∧ accepted = bytes.take (capacity - taken) ∧
        error = refusal := by
  by_cases fits : taken + bytes.length ≤ capacity
  · simp [accept, fits, Nat.not_lt.mpr fits]
  · simp [accept, fits, Nat.not_le.mp fits, eq_comm]

theorem kind_ne_interrupted_of_accept (final : sink.IsFinal)
    (refused : sink.accept taken bytes = (accepted, some error)) :
    error.kind ≠ .interrupted := by
  cases sink with
  | unlimited => cases refused
  | limited capacity refusal =>
      obtain ⟨-, -, equal⟩ := accept_limited_eq_refused_iff.mp refused
      rw [equal]
      exact final

theorem accept_start (sink : Sink) : sink.accept 0 [] = ([], none) := by
  cases sink with
  | unlimited => rfl
  | limited capacity refusal => simp [accept]

/-- A sink that takes one piece takes of the next as it would of both at once. -/
theorem accept_append (whole : sink.accept taken bytes = (accepted, none))
    (more : List UInt8) :
    sink.accept taken (bytes ++ more) =
      (accepted ++ (sink.accept (taken + accepted.length) more).1,
        (sink.accept (taken + accepted.length) more).2) := by
  cases sink with
  | unlimited =>
      cases whole
      rfl
  | limited capacity refusal =>
      obtain ⟨fits, equal⟩ := accept_limited_eq_whole_iff.mp whole
      subst equal
      simp only [accept, List.length_append]
      by_cases all : taken + (accepted.length + more.length) ≤ capacity
      · rw [if_pos all, if_pos (by omega)]
      · have room : capacity - taken =
            accepted.length + (capacity - (taken + accepted.length)) := by omega
        rw [if_neg all, if_neg (by omega), room, List.take_length_add_append]

theorem accept_append_of_refused (refused : sink.accept taken bytes = (accepted, some error))
    (more : List UInt8) :
    sink.accept taken (bytes ++ more) = (accepted, some error) := by
  cases sink with
  | unlimited => cases refused
  | limited capacity refusal =>
      obtain ⟨tooMany, part, equal⟩ := accept_limited_eq_refused_iff.mp refused
      rw [accept_limited_eq_refused_iff, List.length_append]
      refine ⟨by omega, ?_, equal⟩
      rw [part, List.take_append_of_le_length (by omega)]

/-- A sink that took a piece has room for nothing more. -/
theorem accept_nil (whole : sink.accept taken bytes = (accepted, none)) :
    sink.accept (taken + accepted.length) [] = ([], none) := by
  cases sink with
  | unlimited => rfl
  | limited capacity refusal =>
      obtain ⟨fits, equal⟩ := accept_limited_eq_whole_iff.mp whole
      rw [accept_limited_eq_whole_iff, equal]
      exact ⟨fits, rfl⟩

end Sink

namespace Delivery

/-- How a copy ends that brought a number of bytes to a sink which refused none. -/
def counted (count : Nat) : Option Fault → Except Fault Nat
  | none => .ok count
  | some fault => .error fault

/-- An output with its ending as it reaches a sink that took a number of bytes before. -/
def ofOutput (rule : SubstitutionRule) (sink : Sink) (taken : Nat)
    (output : List UInt8 × Option Fault) : Delivery :=
  match sink.accept taken output.1 with
  | (accepted, none) => ⟨accepted, counted (taken + accepted.length) output.2⟩
  | (accepted, some error) => ⟨accepted, .error (.ioFailure (outputOrigin rule.origin) error)⟩

/-- What can come of a copy into a sink that took a number of bytes before.  Reads of any
sizes alternate with writes of all that was read; where a read was interrupted it is tried
again, and every other failure on either side ends the copy. -/
inductive Copies (rule : SubstitutionRule) (sink : Sink) :
    Nat → Substitution → Delivery → Prop
  | ended {taken size : Nat} {substitution after : Substitution} (positive : 0 < size)
      (read : substitution.read rule size = (.ok [], after)) :
      Copies rule sink taken substitution ⟨[], .ok taken⟩
  | failed {taken size : Nat} {substitution after : Substitution} {error : ReadError}
      (positive : 0 < size) (read : substitution.read rule size = (.error error, after))
      (final : error.kind ≠ .interrupted) :
      Copies rule sink taken substitution
        ⟨[], .error (error.recover (outputOrigin rule.origin))⟩
  | retried {taken size : Nat} {substitution after : Substitution} {error : ReadError}
      {delivery : Delivery} (positive : 0 < size)
      (read : substitution.read rule size = (.error error, after))
      (interrupted : error.kind = .interrupted)
      (later : Copies rule sink taken after delivery) :
      Copies rule sink taken substitution delivery
  | written {taken size : Nat} {substitution after : Substitution}
      {bytes accepted : List UInt8} {delivery : Delivery} (positive : 0 < size)
      (read : substitution.read rule size = (.ok bytes, after)) (nonempty : bytes ≠ [])
      (accept : sink.accept taken bytes = (accepted, none))
      (later : Copies rule sink (taken + accepted.length) after delivery) :
      Copies rule sink taken substitution (delivery.precededBy accepted)
  | refused {taken size : Nat} {substitution after : Substitution}
      {bytes accepted : List UInt8} {error : IoError} (positive : 0 < size)
      (read : substitution.read rule size = (.ok bytes, after)) (nonempty : bytes ≠ [])
      (accept : sink.accept taken bytes = (accepted, some error))
      (final : error.kind ≠ .interrupted) :
      Copies rule sink taken substitution
        ⟨accepted, .error ((ReadError.system error).recover (outputOrigin rule.origin))⟩

variable {rule : SubstitutionRule} {sink : Sink} {taken : Nat} {substitution : Substitution}
  {delivery : Delivery}

theorem ofOutput_nil (room : sink.accept taken [] = ([], none)) (ending : Option Fault) :
    ofOutput rule sink taken ([], ending) = ⟨[], counted taken ending⟩ := by
  simp [ofOutput, room]

theorem ofOutput_append {bytes accepted : List UInt8}
    (whole : sink.accept taken bytes = (accepted, none)) (more : List UInt8)
    (ending : Option Fault) :
    ofOutput rule sink taken (bytes ++ more, ending) =
      (ofOutput rule sink (taken + accepted.length) (more, ending)).precededBy accepted := by
  rw [ofOutput, ofOutput, Sink.accept_append whole]
  cases later : sink.accept (taken + accepted.length) more with
  | mk others error =>
      cases error with
      | some error => rfl
      | none => simp [precededBy, Nat.add_assoc]

theorem ofOutput_limited (rule : SubstitutionRule) (capacity : Nat) (refusal : IoError)
    (output : List UInt8 × Option Fault) :
    ofOutput rule (.limited capacity refusal) 0 output =
      ⟨output.1.take capacity,
        if capacity < output.1.length then
          .error (.ioFailure (outputOrigin rule.origin) refusal)
        else
          counted output.1.length output.2⟩ := by
  by_cases more : capacity < output.1.length
  · simp [ofOutput, Sink.accept, more, Nat.not_le.mpr more]
  · have fits : output.1.length ≤ capacity := Nat.not_lt.mp more
    simp [ofOutput, Sink.accept, fits, more, List.take_of_length_le fits]

theorem ofOutput_append_of_refused {bytes accepted : List UInt8} {error : IoError}
    (refused : sink.accept taken bytes = (accepted, some error)) (more : List UInt8)
    (ending : Option Fault) :
    ofOutput rule sink taken (bytes ++ more, ending) =
      ⟨accepted, .error (.ioFailure (outputOrigin rule.origin) error)⟩ := by
  rw [ofOutput, Sink.accept_append_of_refused refused]

/-- A read of some bytes gives the ending where nothing else is owed, and otherwise the
first bytes of what is owed. -/
theorem owed_of_read {size : Nat} {after : Substitution}
    {result : Except ReadError (List UInt8)} (positive : 0 < size)
    (read : substitution.read rule size = (result, after)) :
    (∃ ending, substitution.owed rule = ([], ending) ∧ after.owed rule = ([], ending) ∧
      result = Substitution.atEnd ending) ∨
    (∃ bytes, result = .ok bytes ∧ bytes ≠ [] ∧
      substitution.owed rule = (bytes ++ (after.owed rule).1, (after.owed rule).2)) := by
  have gives := Substitution.read_fst rule positive substitution
  have leaves := Substitution.owed_read rule size substitution
  rw [read] at gives leaves
  cases owed : substitution.owed rule with
  | mk output ending =>
      rw [owed] at gives leaves
      dsimp only at gives leaves
      by_cases nothing : output = []
      · rw [if_pos nothing] at gives
        rw [nothing, List.drop_nil] at leaves
        exact .inl ⟨ending, by rw [nothing], leaves, gives⟩
      · rw [if_neg nothing] at gives
        refine .inr ⟨output.take size, gives, ?_, ?_⟩
        · rw [ne_eq, List.take_eq_nil_iff, not_or]
          exact ⟨Nat.ne_of_gt positive, nothing⟩
        · rw [leaves, List.take_append_drop]

section Read

variable {size : Nat} {after : Substitution} {error : ReadError} {bytes : List UInt8}

theorem owed_of_read_end (positive : 0 < size)
    (read : substitution.read rule size = (.ok [], after)) :
    substitution.owed rule = ([], none) := by
  rcases owed_of_read positive read with ⟨ending, owed, -, equal⟩ | ⟨bytes, equal, some, -⟩
  · cases ending with
    | none => exact owed
    | some fault => cases equal
  · cases equal
    exact absurd rfl some

theorem owed_of_read_error (positive : 0 < size)
    (read : substitution.read rule size = (.error error, after)) :
    ∃ fault, error = .carried fault ∧ substitution.owed rule = ([], some fault) ∧
      after.owed rule = ([], some fault) := by
  rcases owed_of_read positive read with ⟨ending, owed, same, equal⟩ | ⟨bytes, equal, -, -⟩
  · cases ending with
    | none => cases equal
    | some fault =>
        cases equal
        exact ⟨fault, rfl, owed, same⟩
  · cases equal

theorem owed_of_read_bytes (positive : 0 < size)
    (read : substitution.read rule size = (.ok bytes, after)) (nonempty : bytes ≠ []) :
    substitution.owed rule = (bytes ++ (after.owed rule).1, (after.owed rule).2) := by
  rcases owed_of_read positive read with ⟨ending, -, -, equal⟩ | ⟨own, equal, -, owed⟩
  · cases ending with
    | none =>
        cases equal
        exact absurd rfl nonempty
    | some fault => cases equal
  · cases equal
    exact owed

end Read

/-- Every copy brings the sink what it takes of all that is owed. -/
theorem Copies.eq_ofOutput (copies : Copies rule sink taken substitution delivery)
    (room : sink.accept taken [] = ([], none)) :
    delivery = ofOutput rule sink taken (substitution.owed rule) := by
  induction copies with
  | ended positive read =>
      rw [owed_of_read_end positive read, ofOutput_nil room, counted]
  | failed positive read final =>
      obtain ⟨fault, carried, owed, -⟩ := owed_of_read_error positive read
      rw [carried, owed, ofOutput_nil room, counted, ReadError.recover]
  | retried positive read interrupted later ih =>
      obtain ⟨fault, -, owed, same⟩ := owed_of_read_error positive read
      rw [ih room, owed, same]
  | written positive read nonempty accept later ih =>
      rw [owed_of_read_bytes positive read nonempty, ofOutput_append accept,
        ih (Sink.accept_nil accept)]
  | refused positive read nonempty accept final =>
      rw [owed_of_read_bytes positive read nonempty, ofOutput_append_of_refused accept,
        ReadError.recover]

/-- A copy with reads of one size is a copy.  It never has to try anything again. -/
theorem copies_copyAfter (final : sink.IsFinal)
    (calm : ∀ fault, (substitution.owed rule).2 = some fault →
      (ReadError.carried fault).kind ≠ .interrupted) :
    Copies rule sink taken substitution (copyAfter rule sink taken substitution) := by
  have positive : 0 < copySize := by decide
  fun_induction copyAfter rule sink taken substitution with
  | case1 taken substitution error after read =>
      obtain ⟨fault, carried, owed, -⟩ := owed_of_read_error positive read
      refine .failed positive read ?_
      rw [carried]
      exact calm fault (by rw [owed])
  | case2 taken substitution after read => exact .ended positive read
  | case3 taken substitution first others after read accepted accept ih =>
      refine .written positive read (List.cons_ne_nil first others) accept (ih ?_)
      have leaves := Substitution.owed_read rule copySize substitution
      rw [read] at leaves
      dsimp only at leaves
      rw [leaves]
      exact calm
  | case4 taken substitution first others after read accepted error accept =>
      exact .refused positive read (List.cons_ne_nil first others) accept
        (Sink.kind_ne_interrupted_of_accept final accept)

end Delivery

namespace Stream

theorem copies_substituteInto (rule : SubstitutionRule) {sink : Sink} (final : sink.IsFinal)
    (stream : Stream) :
    Delivery.Copies rule sink 0 (.start stream) (stream.substituteInto rule sink) :=
  Delivery.copies_copyAfter final fun _ ending =>
    rule.kind_ne_interrupted_of_outcome stream ending

/-- A sink gets of a substitution what it takes of the whole output. -/
theorem substituteInto_eq (rule : SubstitutionRule) {sink : Sink} (final : sink.IsFinal)
    (stream : Stream) :
    stream.substituteInto rule sink =
      .ofOutput rule sink 0
        (rule.outcome stream.transcript.failure 1 stream.transcript.lines) :=
  (copies_substituteInto rule final stream).eq_ofOutput sink.accept_start

/-- Some lines of a stream, from the first on, can be substituted, and either they are all
or the next one fails.  A sink of some capacity gets the first bytes of the output of these
lines, as many as it takes.  If there are more, the copy fails with the refusal of the sink;
otherwise it counts the bytes, or fails as the stream or its failing line does.  No other
sizes of the reads come to anything else. -/
theorem copies_take_prefix (rule : SubstitutionRule) (stream : Stream) :
    ∃ before rest expansions ending,
      stream.transcript.lines = before ++ rest ∧
      List.Forall₂ rule.Expands before expansions ∧
      rule.Ends stream.transcript.failure (before.length + 1) rest ending ∧
      ∀ capacity (refusal : IoError), refusal.kind ≠ .interrupted →
        let output := expansions.flatten
        let delivery : Delivery :=
          ⟨output.take capacity,
            if capacity < output.length then
              .error (.ioFailure (Delivery.outputOrigin rule.origin) refusal)
            else
              match ending with
              | none => .ok output.length
              | some fault => .error fault⟩
        stream.substituteInto rule (.limited capacity refusal) = delivery ∧
        ∀ other, Delivery.Copies rule (.limited capacity refusal) 0 (.start stream) other ↔
          other = delivery := by
  obtain ⟨before, rest, expansions, split, all, output, ending⟩ :=
    rule.exists_outcome stream.transcript.failure 1 stream.transcript.lines
  rw [Nat.add_comm] at ending
  refine ⟨before, rest, expansions, _, split, all, ending, ?_⟩
  intro capacity refusal plain whole delivery
  have final : (Sink.limited capacity refusal).IsFinal := plain
  have equal : Delivery.ofOutput rule (.limited capacity refusal) 0
      (rule.outcome stream.transcript.failure 1 stream.transcript.lines) = delivery := by
    rw [Delivery.ofOutput_limited, output]
    rfl
  have own := copies_substituteInto rule final stream
  refine ⟨(substituteInto_eq rule final stream).trans equal, fun other => ⟨?_, ?_⟩⟩
  · intro copies
    exact (copies.eq_ofOutput (Sink.accept_start _)).trans equal
  · intro same
    rw [same, ← equal, ← substituteInto_eq rule final stream]
    exact own

/-- A line that fails stands after four bytes: a sink that takes fewer refuses the rest, and
one that takes them all is told of the line. -/
theorem copies_take_prefix_of_failing_line :
    let rule : SubstitutionRule :=
      ⟨.ofVariables [⟨"A".toList, "1".toList⟩], false, "page".toList⟩
    let stream : Stream := .ofBytes (Utf8.encode "X=$A\nY=$B\n".toList)
    let closed : IoError := ⟨.brokenPipe, "sink closed".toList⟩
    closed.kind ≠ .interrupted ∧
      (∀ other, Delivery.Copies rule (.limited 3 closed) 0 (.start stream) other ↔
        other = ⟨Utf8.encode "X=1".toList,
          .error (.ioFailure "output for page".toList closed)⟩) ∧
      ∀ other, Delivery.Copies rule (.limited 4 closed) 0 (.start stream) other ↔
        other = ⟨Utf8.encode "X=1\n".toList,
          .error (.undefinedReference none "page line 2".toList ["B".toList])⟩ := by
  intro rule stream closed
  have plain : closed.kind ≠ .interrupted := by decide
  have delivers (capacity : Nat) : stream.substituteInto rule (.limited capacity closed) =
      .ofOutput rule (.limited capacity closed) 0
        (Utf8.encode "X=1\n".toList,
          some (.undefinedReference none "page line 2".toList ["B".toList])) := by
    have final : (Sink.limited capacity closed).IsFinal := plain
    have outcome : rule.outcome stream.transcript.failure 1 stream.transcript.lines =
        (Utf8.encode "X=1\n".toList,
          some (.undefinedReference none "page line 2".toList ["B".toList])) := by
      decide +kernel
    rw [substituteInto_eq rule final stream, outcome]
  obtain ⟨before, rest, expansions, ending, -, -, -, copies⟩ := copies_take_prefix rule stream
  refine ⟨plain, fun other => ?_, fun other => ?_⟩
  · obtain ⟨own, all⟩ := copies 3 closed plain
    rw [all, ← own, delivers, Delivery.ofOutput_limited]
    exact Iff.rfl
  · obtain ⟨own, all⟩ := copies 4 closed plain
    rw [all, ← own, delivers, Delivery.ofOutput_limited]
    exact Iff.rfl

end Stream

end Dotenv
