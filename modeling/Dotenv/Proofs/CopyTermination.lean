import Dotenv.Proofs.CopiedOutput
import Dotenv.Proofs.LazyReads

/-!
# Copies come to their end

A copy tries a read again where it was interrupted, while a substitution repeats a fault
that it has recorded at every read.  No recorded fault passes for an interruption, so a copy
goes on only after a read that delivers something, and makes no more reads than there are
bytes to deliver and one.
-/

namespace Dotenv

namespace Substitution

variable {rule : SubstitutionRule} {substitution : Substitution} {fault : Fault}

theorem owed_snd_of_fault (recorded : substitution.fault = some fault) :
    (substitution.owed rule).2 = some fault := by
  rw [owed_of_closed rule (by simp [isOpen, recorded])]
  exact recorded

/-- Once everything before it is delivered, every read gives the recorded fault and changes
nothing. -/
theorem read_of_fault (recorded : substitution.fault = some fault)
    (delivered : substitution.ready = []) {size : Nat} (positive : 0 < size) :
    substitution.read rule size = (.error (.carried fault), substitution) := by
  have closed : substitution.isOpen = false := by simp [isOpen, recorded]
  simp [read, Nat.ne_of_gt positive, fill_of_closed rule size closed, delivered, recorded]

/-- Whatever reads come before, no fault is recorded that would pass for an interruption. -/
theorem kind_ne_interrupted_of_reads (rule : SubstitutionRule) (stream : Stream)
    (sizes : List Nat)
    (recorded : (reads rule sizes (start stream)).2.fault = some fault) :
    (ReadError.carried fault).kind ≠ .interrupted := by
  have kept := (owed_reads rule sizes (start stream)).2
  rw [owed_snd_of_fault recorded] at kept
  exact rule.kind_ne_interrupted_of_outcome stream kept.symm

end Substitution

namespace Delivery

/-- A copy by reads of given sizes, where a sink took a number of bytes before.  A read that
was interrupted is tried again with the next size, and every other failure on either side
ends the copy.  There is no delivery where the copy is still under way after all of these
reads. -/
def copyWithin (rule : SubstitutionRule) (sink : Sink) :
    List Nat → Nat → Substitution → Option Delivery
  | [], _, _ => none
  | size :: sizes, taken, substitution =>
    match substitution.read rule size with
    | (.error error, after) =>
      if error.kind = .interrupted then
        copyWithin rule sink sizes taken after
      else
        some ⟨[], .error (error.recover (outputOrigin rule.origin))⟩
    | (.ok [], _) => some ⟨[], .ok taken⟩
    | (.ok (first :: others), after) =>
      match sink.accept taken (first :: others) with
      | (accepted, none) =>
        (copyWithin rule sink sizes (taken + accepted.length) after).map
          (precededBy accepted)
      | (accepted, some error) =>
        some ⟨accepted, .error (.ioFailure (outputOrigin rule.origin) error)⟩

variable {rule : SubstitutionRule} {sink : Sink} {taken : Nat}
  {substitution after : Substitution} {size : Nat} {sizes : List Nat}
  {bytes accepted : List UInt8}

theorem copyWithin_of_end (read : substitution.read rule size = (.ok [], after)) :
    copyWithin rule sink (size :: sizes) taken substitution = some ⟨[], .ok taken⟩ := by
  simp only [copyWithin, read]

theorem copyWithin_of_error {error : ReadError}
    (read : substitution.read rule size = (.error error, after))
    (final : error.kind ≠ .interrupted) :
    copyWithin rule sink (size :: sizes) taken substitution =
      some ⟨[], .error (error.recover (outputOrigin rule.origin))⟩ := by
  simp only [copyWithin, read, if_neg final]

theorem copyWithin_of_written (read : substitution.read rule size = (.ok bytes, after))
    (nonempty : bytes ≠ []) (whole : sink.accept taken bytes = (accepted, none)) :
    copyWithin rule sink (size :: sizes) taken substitution =
      (copyWithin rule sink sizes (taken + accepted.length) after).map
        (precededBy accepted) := by
  cases bytes with
  | nil => exact absurd rfl nonempty
  | cons first others => simp only [copyWithin, read, whole]

theorem copyWithin_of_refused {error : IoError}
    (read : substitution.read rule size = (.ok bytes, after)) (nonempty : bytes ≠ [])
    (refused : sink.accept taken bytes = (accepted, some error)) :
    copyWithin rule sink (size :: sizes) taken substitution =
      some ⟨accepted, .error (.ioFailure (outputOrigin rule.origin) error)⟩ := by
  cases bytes with
  | nil => exact absurd rfl nonempty
  | cons first others => simp only [copyWithin, read, refused]

/-- With more reads than bytes are owed a copy ends, and brings the sink what it takes of
them. -/
theorem copyWithin_eq (positive : ∀ size ∈ sizes, 0 < size)
    (enough : (substitution.owed rule).1.length < sizes.length)
    (calm : ∀ fault, (substitution.owed rule).2 = some fault →
      (ReadError.carried fault).kind ≠ .interrupted)
    (room : sink.accept taken [] = ([], none)) :
    copyWithin rule sink sizes taken substitution =
      some (ofOutput rule sink taken (substitution.owed rule)) := by
  -- a read after which the copy goes on delivers at least one of the bytes that are owed
  induction sizes generalizing taken substitution with
  | nil => cases enough
  | cons size sizes ih =>
      obtain ⟨positiveHere, positiveLater⟩ := List.forall_mem_cons.mp positive
      cases read : substitution.read rule size with
      | mk result after =>
          rcases owed_of_read positiveHere read with
            ⟨ending, owed, -, equal⟩ | ⟨bytes, equal, nonempty, owed⟩
          · rw [owed, ofOutput_nil room]
            cases ending with
            | none =>
                cases equal
                exact copyWithin_of_end read
            | some fault =>
                cases equal
                exact copyWithin_of_error read (calm fault (by rw [owed]))
          · subst equal
            rw [owed] at enough calm ⊢
            cases accept : sink.accept taken bytes with
            | mk accepted refusal =>
                cases refusal with
                | some error =>
                    rw [ofOutput_append_of_refused accept]
                    exact copyWithin_of_refused read nonempty accept
                | none =>
                    have delivered := List.length_pos_iff.mpr nonempty
                    have fewer : (after.owed rule).1.length < sizes.length := by
                      rw [List.length_append, List.length_cons] at enough
                      omega
                    rw [copyWithin_of_written read nonempty accept,
                      ih positiveLater fewer calm (Sink.accept_nil accept),
                      ofOutput_append accept, Option.map_some]

end Delivery

namespace Stream

theorem bytes_substituteInto (rule : SubstitutionRule) (stream : Stream) :
    (stream.substituteInto rule .unlimited).bytes =
      (rule.outcome stream.transcript.failure 1 stream.transcript.lines).1 := by
  have final : Sink.IsFinal .unlimited := trivial
  rw [substituteInto_eq rule final]
  rfl

/-- A substitution never records a fault that a copy would take for an interruption, although
it repeats at every later read what it has recorded.  So a copy into a sink that refuses for
good ends within one read more than there are bytes to deliver, whatever the sizes of the
reads and however often the stream is interrupted, and it always brings the same. -/
theorem copying_ends (rule : SubstitutionRule) (stream : Stream) :
    (∀ sizes fault,
      let reached := (Substitution.reads rule sizes (.start stream)).2
      reached.fault = some fault →
        (ReadError.carried fault).kind ≠ .interrupted ∧
        (reached.ready = [] → ∀ size, 0 < size →
          reached.read rule size = (.error (.carried fault), reached))) ∧
    ∀ sink : Sink, sink.IsFinal → ∀ sizes : List Nat, (∀ size ∈ sizes, 0 < size) →
      (stream.substituteInto rule .unlimited).bytes.length < sizes.length →
        Delivery.copyWithin rule sink sizes 0 (.start stream) =
          some (stream.substituteInto rule sink) := by
  constructor
  · intro sizes fault reached recorded
    refine ⟨Substitution.kind_ne_interrupted_of_reads rule stream sizes recorded, ?_⟩
    intro delivered size positive
    exact Substitution.read_of_fault recorded delivered positive
  · intro sink final sizes positive enough
    rw [bytes_substituteInto] at enough
    rw [substituteInto_eq rule final stream]
    exact Delivery.copyWithin_eq positive enough
      (fun _ ending => rule.kind_ne_interrupted_of_outcome stream ending)
      sink.accept_start

/-- A stream that is interrupted twice in a line, where the next line fails: four bytes are
copied by five reads at most, and the fault is repeated. -/
theorem copying_ends_after_interruptions :
    let rule : SubstitutionRule :=
      ⟨.ofVariables [⟨"A".toList, "1".toList⟩], false, "page".toList⟩
    let interruption : ReadEvent := .failure ⟨.interrupted, "try again".toList⟩
    let stream : Stream := [interruption, .data (Utf8.encode "X=$".toList), interruption,
      .data (Utf8.encode "A\n$B\n".toList)]
    let fault : Fault := .undefinedReference none "page line 2".toList ["B".toList]
    let reached := (Substitution.reads rule [3, 0, 5] (.start stream)).2
    reached.fault = some fault ∧ (ReadError.carried fault).kind ≠ .interrupted ∧
      reached.read rule 7 = (.error (.carried fault), reached) ∧
      Delivery.copyWithin rule .unlimited [1, 3, 1, 1, 2] 0 (.start stream) =
        some (stream.substituteInto rule .unlimited) ∧
      (stream.substituteInto rule .unlimited).bytes = Utf8.encode "X=1\n".toList := by
  intro rule interruption stream fault reached
  obtain ⟨recorded, copies⟩ := copying_ends rule stream
  have bytes : (stream.substituteInto rule .unlimited).bytes =
      Utf8.encode "X=1\n".toList := by
    rw [bytes_substituteInto]
    decide +kernel
  have faulty : reached.fault = some fault := by decide +kernel
  have drained : reached.ready = [] := by decide +kernel
  obtain ⟨final, repeated⟩ := recorded [3, 0, 5] fault faulty
  refine ⟨faulty, final, repeated drained 7 (by decide), ?_, bytes⟩
  exact copies .unlimited trivial _ (by decide) (by rw [bytes]; decide)

end Stream

end Dotenv
