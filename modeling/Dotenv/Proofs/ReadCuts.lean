import Dotenv.Proofs.DefinitionLines
import Dotenv.Proofs.SubstitutionRun

/-!
# Cuts between reads

Definitions and substituted bytes depend on the signals of a stream alone.  Two
substitutions whose streams have the same signals stay alike in everything else: each
pulled line keeps them so, and so does each read of whatever size.
-/

namespace Dotenv

/-- The same fault where the text came from another origin. -/
def Fault.withOrigin (origin : Text) : Fault → Fault
  | .malformedLine _ line => .malformedLine origin line
  | .undefinedReference definition _ missing =>
    .undefinedReference definition origin missing
  | .invalidReference line column => .invalidReference line column
  | .ioFailure _ error => .ioFailure origin error
  | .invalidSetting name reason => .invalidSetting name reason

namespace Definitions

variable (allowBlank : Bool)

theorem ofLines_withOrigin (origin other : Text) (failure : Option IoError) (number : Nat)
    (lines : List (List UInt8)) :
    (ofLines allowBlank origin failure number lines).mapError (Fault.withOrigin other) =
      ofLines allowBlank other failure number lines := by
  induction lines generalizing number with
  | nil => cases failure <;> rfl
  | cons line rest ih =>
      rw [ofLines, ofLines]
      cases Utf8.decode (Stream.withoutTerminator line) with
      | error fault => rfl
      | ok text =>
          dsimp only
          cases Line.classify allowBlank text with
          | definition entry =>
              dsimp only
              rw [← ih (number + 1)]
              cases ofLines allowBlank origin failure (number + 1) rest <;> rfl
          | comment => exact ih (number + 1)
          | blank => exact ih (number + 1)
          | malformed => rfl

theorem ofStream_congr {first second : Stream} (same : first.signals = second.signals)
    (origin : Text) :
    ofStream allowBlank origin first = ofStream allowBlank origin second := by
  rw [ofStream, ofStream, Stream.transcript_congr same]

theorem ofStream_withOrigin (origin other : Text) (stream : Stream) :
    (ofStream allowBlank origin stream).mapError (Fault.withOrigin other) =
      ofStream allowBlank other stream :=
  ofLines_withOrigin allowBlank origin other _ 1 _

/-- The bytes of a text give its definitions, whatever reads they come from. -/
theorem ofStream_of_bytes {stream : Stream} {text : Text}
    (own : stream.signals = (Utf8.encode text).map .byte) (origin : Text) :
    ofStream allowBlank origin stream =
      ofStream allowBlank origin (.ofBytes (Utf8.encode text)) := by
  rw [ofStream, ofStream, Stream.transcript_of_bytes own, Stream.transcript_ofBytes]

end Definitions

namespace Substitution

/-- Substitutions that differ in nothing but the cuts between the reads to come. -/
structure SameButCuts (first second : Substitution) : Prop where
  signals : first.stream.signals = second.stream.signals
  ready : first.ready = second.ready
  lineCount : first.lineCount = second.lineCount
  ended : first.ended = second.ended
  fault : first.fault = second.fault

namespace SameButCuts

variable {first second : Substitution} (same : SameButCuts first second)

include same

theorem isOpen : first.isOpen = second.isOpen := by
  rw [Substitution.isOpen, Substitution.isOpen, same.ended, same.fault]

theorem advance (rule : SubstitutionRule) :
    SameButCuts (first.advance rule) (second.advance rule) := by
  cases read : first.stream.readLine with
  | mk result rest =>
      obtain ⟨others, otherRead, sameRest⟩ := Stream.readLine_congr same.signals read
      unfold Substitution.advance
      rw [read, otherRead, ← same.lineCount]
      cases result with
      | error error => exact ⟨sameRest.symm, same.ready, rfl, same.ended, rfl⟩
      | ok line =>
          cases line with
          | nil => exact ⟨sameRest.symm, same.ready, rfl, rfl, same.fault⟩
          | cons byte bytes =>
              dsimp only
              cases rule.substituteLine (first.lineCount + 1) (byte :: bytes) with
              | error fault => exact ⟨sameRest.symm, same.ready, rfl, same.ended, rfl⟩
              | ok substituted =>
                  exact ⟨sameRest.symm, congrArg (· ++ substituted) same.ready, rfl,
                    same.ended, same.fault⟩

theorem fill (rule : SubstitutionRule) (wanted : Nat) :
    SameButCuts (first.fill rule wanted) (second.fill rule wanted) := by
  fun_induction Substitution.fill rule wanted first generalizing second with
  | case1 first more ih =>
      have otherMore : second.ready.length < wanted ∧ second.isOpen = true := by
        rwa [← same.ready, ← same.isOpen]
      have otherStep : second.fill rule wanted = (second.advance rule).fill rule wanted := by
        rw [Substitution.fill, dif_pos otherMore]
      rw [otherStep]
      exact ih (same.advance rule)
  | case2 first enough =>
      have otherEnough : second.fill rule wanted = second := by
        rw [Substitution.fill, dif_neg (by rwa [← same.ready, ← same.isOpen])]
      rw [otherEnough]
      exact same

theorem take (size : Nat) : SameButCuts (first.take size).2 (second.take size).2 :=
  ⟨same.signals, congrArg (·.drop size) same.ready, same.lineCount, same.ended, same.fault⟩

theorem read (rule : SubstitutionRule) (size : Nat) :
    (first.read rule size).1 = (second.read rule size).1 ∧
      SameButCuts (first.read rule size).2 (second.read rule size).2 := by
  by_cases zero : size = 0
  · subst zero
    exact ⟨rfl, same⟩
  · have filled := same.fill rule size
    simp only [Substitution.read, if_neg zero, ← filled.ready, ← filled.fault]
    by_cases nothing : (first.fill rule size).ready.isEmpty
    · simp only [if_pos nothing]
      cases (first.fill rule size).fault with
      | none => exact ⟨rfl, filled⟩
      | some fault => exact ⟨rfl, filled⟩
    · simp only [if_neg nothing]
      exact ⟨by rw [Substitution.take, Substitution.take, filled.ready], filled.take size⟩

end SameButCuts

/-- What can be noticed of a read: what it gives, and afterwards the number of bytes that
are ready and the number of lines pulled. -/
structure Report where
  result : Except ReadError (List UInt8)
  ready : Nat
  lineCount : Nat
  deriving DecidableEq

/-- What can be noticed of reads of given sizes one after the other. -/
def reports (rule : SubstitutionRule) : List Nat → Substitution → List Report
  | [], _ => []
  | size :: sizes, substitution =>
    let read := substitution.read rule size
    ⟨read.1, read.2.ready.length, read.2.lineCount⟩ :: reports rule sizes read.2

theorem SameButCuts.reports {first second : Substitution} (same : SameButCuts first second)
    (rule : SubstitutionRule) (sizes : List Nat) :
    Substitution.reports rule sizes first = Substitution.reports rule sizes second := by
  induction sizes generalizing first second with
  | nil => rfl
  | cons size sizes ih =>
      obtain ⟨sameResult, sameAfter⟩ := same.read rule size
      rw [Substitution.reports, Substitution.reports, sameResult, sameAfter.ready,
        sameAfter.lineCount, ih sameAfter]

theorem sameButCuts_start {first second : Stream} (same : first.signals = second.signals) :
    SameButCuts (start first) (start second) :=
  ⟨same, rfl, rfl, rfl, rfl⟩

end Substitution

namespace Stream

/-- Streams with the same signals have the same definitions, and reads of whatever sizes
notice no difference between substitutions in them.  The bytes of a text have the
definitions of the text, from whatever reads and from whatever source they come; only the
origin of a fault tells them apart. -/
theorem reads_hide_cuts :
    (∀ first second : Stream, first.signals = second.signals →
      (∀ allowBlank origin, Definitions.ofStream allowBlank origin first =
        Definitions.ofStream allowBlank origin second) ∧
      ∀ rule sizes, Substitution.reports rule sizes (.start first) =
        Substitution.reports rule sizes (.start second)) ∧
    ∀ (text : Text) (stream : Stream), stream.signals = (Utf8.encode text).map .byte →
      ∀ tree allowBlank origin,
        let read := (Definitions.ofText allowBlank text).mapError (Fault.withOrigin origin)
        Definitions.ofStream allowBlank origin stream = read ∧
        Source.definitions tree allowBlank (.stream origin stream) = read ∧
        Source.definitions tree allowBlank (.text origin text) = read := by
  constructor
  · intro first second same
    constructor
    · intro allowBlank origin
      exact Definitions.ofStream_congr allowBlank same origin
    · intro rule sizes
      exact (Substitution.sameButCuts_start same).reports rule sizes
  · intro text stream own tree allowBlank origin
    have inline : (Definitions.ofText allowBlank text).mapError (Fault.withOrigin origin) =
        Definitions.ofStream allowBlank origin (.ofBytes (Utf8.encode text)) :=
      Definitions.ofStream_withOrigin allowBlank inlineOrigin origin _
    have read := (Definitions.ofStream_of_bytes allowBlank own origin).trans inline.symm
    exact ⟨read, read, inline.symm⟩

/-- Reads that are cut inside of a character and before a line feed, with one that is tried
again, an empty one and a failure. -/
theorem reads_hide_cuts_retried :
    let retried : ReadEvent := .failure ⟨.interrupted, "again".toList⟩
    let slow : ReadEvent := .failure ⟨.timedOut, "slow".toList⟩
    let first : Stream := [.data [0x41, 0x3D, 0xC3], retried, .data [0xA9, 0x0D],
      .data [0x0A, 0x24, 0x42], .data [], .data [0x43, 0x3D], slow]
    let second : Stream := [retried, .data [0x41, 0x3D, 0xC3, 0xA9, 0x0D, 0x0A, 0x24, 0x42],
      .data [], .data [0x43], .data [0x3D], slow]
    let rule : SubstitutionRule :=
      ⟨.ofVariables [⟨"B".toList, "2".toList⟩], true, "page".toList⟩
    let text : Text := "A=é\r\n$B".toList
    let stream : Stream := (Utf8.encode text).map fun byte => .data [byte]
    (first.signals = second.signals ∧
      Definitions.ofStream false "page".toList first =
        Definitions.ofStream false "page".toList second ∧
      Substitution.reports rule [1, 4, 0, 9, 9] (.start first) =
        Substitution.reports rule [1, 4, 0, 9, 9] (.start second)) ∧
    stream.signals = (Utf8.encode text).map .byte ∧
      Definitions.ofStream false "page".toList stream =
        .error (.malformedLine "page".toList 2) := by
  intro retried slow first second rule text stream
  obtain ⟨alike, whole⟩ := reads_hide_cuts
  have same : first.signals = second.signals := by decide
  have bytes : stream.signals = (Utf8.encode text).map .byte := by decide
  have malformed : Definitions.ofText false text = .error (.malformedLine inlineOrigin 2) := by
    decide +kernel
  obtain ⟨definitions, reports⟩ := alike first second same
  refine ⟨⟨same, definitions false _, reports rule _⟩, bytes, ?_⟩
  rw [(whole text stream bytes .empty false "page".toList).1, malformed]
  rfl

end Stream

end Dotenv
