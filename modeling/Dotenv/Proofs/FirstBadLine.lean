import Dotenv.Definitions
import Dotenv.Proofs.TextLines
import Dotenv.Text.Utf8.Exact

/-!
# The first bad line

The definitions of a stream are those of its lines in order, as long as every read succeeds,
every line is UTF-8 and none is malformed.  Otherwise the first of the line reads that breaks
this decides alone: what it gives is the fault, and nothing that comes after it is looked at.
-/

namespace Dotenv

/-- The variable that a line defines. -/
def Line.defined? : Line → Option Variable
  | .definition entry => some entry
  | .comment | .blank | .malformed => none

theorem Line.defined?_eq_some_iff {line : Line} {entry : Variable} :
    line.defined? = some entry ↔ line = .definition entry := by
  cases line with
  | definition other => simp [defined?]
  | comment => simp [defined?]
  | blank => simp [defined?]
  | malformed => simp [defined?]

/-- What a line read gives where a text stands on the line. -/
def Text.lineRead (line : Text) : Except IoError (List UInt8) := .ok (Utf8.encode line)

namespace Stream

/-- What line reads give, one after the other: the lines without their ends, and last the
error of a read that failed. -/
def Transcript.contents (transcript : Transcript) : List (Except IoError (List UInt8)) :=
  transcript.lines.map (fun line => .ok (withoutTerminator line)) ++
    transcript.failure.toList.map .error

def contents (stream : Stream) : List (Except IoError (List UInt8)) :=
  stream.transcript.contents

section Reads

variable {stream rest : Stream}

theorem contents_of_error {error : IoError} (read : stream.readLine = (.error error, rest)) :
    stream.contents = [.error error] := by
  rw [contents, transcript_of_error read]
  rfl

theorem contents_of_end (read : stream.readLine = (.ok [], rest)) : stream.contents = [] := by
  rw [contents, transcript_of_end read]
  rfl

theorem contents_of_line {line : List UInt8} (read : stream.readLine = (.ok line, rest))
    (nonempty : line ≠ []) :
    stream.contents = .ok (withoutTerminator line) :: rest.contents := by
  rw [contents, transcript_of_line read nonempty]
  rfl

end Reads

/-- The lines of an encoded text are the encoded lines of the text. -/
theorem contents_encode (text : Text) :
    (ofBytes (Utf8.encode text)).contents = text.contentLines.map Text.lineRead := by
  rw [contents, transcript_encode, Transcript.contents, Text.contentLines, List.map_map,
    List.map_map]
  simp [Text.lineRead, Utf8.withoutTerminator_encode]

end Stream

namespace Signal

/-- Signals that do not stop inside of a line: the last of them is no byte but a line feed. -/
def AreWhole (signals : List Signal) : Prop :=
  ∀ value, signals.getLast? = some (.byte value) → value = Stream.lineFeed

theorem AreWhole.of_append (before : List Signal) {after : List Signal}
    (whole : AreWhole (before ++ after)) : AreWhole after := by
  intro value last
  apply whole value
  rw [List.getLast?_append, last]
  rfl

/-- A line read leaves the end of what it reads from. -/
theorem exists_readLine_append (signals : List Signal) :
    ∃ line, line ++ (readLine signals).2 = signals := by
  induction signals with
  | nil => exact ⟨[], rfl⟩
  | cons first rest ih =>
      cases first with
      | pause => exact ⟨[.pause], rfl⟩
      | failure error => exact ⟨[.failure error], rfl⟩
      | byte value =>
          rw [readLine]
          split
          · exact ⟨[.byte value], rfl⟩
          · obtain ⟨line, joined⟩ := ih
            exact ⟨.byte value :: line, congrArg (Signal.byte value :: ·) joined⟩

/-- What comes after whole lines shows in none of them. -/
theorem readLine_append {signals : List Signal} (whole : AreWhole signals)
    (nonempty : signals ≠ []) (rest : List Signal) :
    readLine (signals ++ rest) = ((readLine signals).1, (readLine signals).2 ++ rest) := by
  induction signals with
  | nil => exact absurd rfl nonempty
  | cons first signals ih =>
      cases first with
      | pause => rfl
      | failure error => rfl
      | byte value =>
          by_cases isEnd : value == Stream.lineFeed
          · simp [readLine, isEnd]
          · have inside : signals ≠ [] := by
              intro last
              subst last
              exact isEnd (beq_iff_eq.mpr (whole value rfl))
            have later : AreWhole signals := AreWhole.of_append [.byte value] whole
            simp [readLine, isEnd, ih later inside]

end Signal

namespace Stream

/-- The contents of whole lines stay, whatever the stream goes on with. -/
theorem contents_prefix {head whole : Stream} {rest : List Signal}
    (joined : whole.signals = head.signals ++ rest) (lines : Signal.AreWhole head.signals) :
    head.contents <+: whole.contents := by
  induction size : head.size using Nat.strongRecOn generalizing head whole with
  | ind size ih =>
      have ownRead := readLine_signals head
      by_cases nothing : head.signals = []
      · rw [nothing, Signal.readLine] at ownRead
        obtain ⟨ended, -⟩ := Prod.mk.inj ownRead
        rw [contents_of_end (Prod.ext ended.symm rfl)]
        exact List.nil_prefix
      · cases read : head.readLine with
        | mk result later =>
            rw [read] at ownRead
            have wholeRead := Signal.readLine_append lines nothing rest
            rw [← joined, ownRead] at wholeRead
            obtain ⟨others, otherRead, othersJoined⟩ := exists_readLine wholeRead
            cases result with
            | error error =>
                have same : head.contents = whole.contents := by
                  rw [contents_of_error read, contents_of_error otherRead]
                exact same ▸ List.prefix_rfl
            | ok line =>
                by_cases last : line = []
                · subst last
                  rw [contents_of_end read]
                  exact List.nil_prefix
                · have smaller := size_readLine_lt read last
                  obtain ⟨taken, remains⟩ := Signal.exists_readLine_append head.signals
                  rw [ownRead] at remains
                  have laterLines : Signal.AreWhole later.signals :=
                    Signal.AreWhole.of_append taken (remains ▸ lines)
                  rw [contents_of_line read last, contents_of_line otherRead last,
                    List.cons_prefix_cons]
                  exact ⟨rfl, ih _ (size ▸ smaller) othersJoined laterLines rfl⟩

end Stream

namespace Definitions

/-- Why what a line read of a number gives is no line of definitions. -/
inductive Refuses (allowBlank : Bool) (origin : Text) (number : Nat) :
    Except IoError (List UInt8) → Fault → Prop
  | unread (error : IoError) :
      Refuses allowBlank origin number (.error error) (.ioFailure origin error)
  | foreign {bytes : List UInt8} (notUtf8 : ∀ text, bytes ≠ Utf8.encode text) :
      Refuses allowBlank origin number (.ok bytes) (.ioFailure origin .notUtf8)
  | malformed {text : Text} (classified : Line.classify allowBlank text = .malformed) :
      Refuses allowBlank origin number text.lineRead (.malformedLine origin number)

/-- Line reads that give texts, none of which is a malformed line. -/
def AreGood (allowBlank : Bool) (contents : List (Except IoError (List UInt8)))
    (texts : List Text) : Prop :=
  contents = texts.map Text.lineRead ∧
    ∀ text ∈ texts, Line.classify allowBlank text ≠ .malformed

/-- The first of some line reads that gives no line of definitions has a number, and a fault
comes from it. -/
def FailsAt (allowBlank : Bool) (origin : Text)
    (contents : List (Except IoError (List UInt8))) (number : Nat) (fault : Fault) : Prop :=
  ∃ before texts bad after, contents = before ++ bad :: after ∧
    AreGood allowBlank before texts ∧ number = before.length + 1 ∧
    Refuses allowBlank origin number bad fault

section Lines

variable {allowBlank : Bool} {origin : Text} {texts : List Text}
  {read : Except IoError (List UInt8)} {contents : List (Except IoError (List UInt8))}

theorem areGood_cons_iff :
    AreGood allowBlank (read :: contents) texts ↔
      ∃ text later, texts = text :: later ∧ read = text.lineRead ∧
        Line.classify allowBlank text ≠ .malformed ∧ AreGood allowBlank contents later := by
  constructor
  · rintro ⟨equal, good⟩
    obtain ⟨text, later, split, own, others⟩ := List.map_eq_cons_iff.mp equal.symm
    subst split
    obtain ⟨ownGood, othersGood⟩ := List.forall_mem_cons.mp good
    exact ⟨text, later, rfl, own.symm, ownGood, others.symm, othersGood⟩
  · rintro ⟨text, later, rfl, rfl, ownGood, rfl, othersGood⟩
    exact ⟨rfl, List.forall_mem_cons.mpr ⟨ownGood, othersGood⟩⟩

/-- Line reads are all good, or one of them is the first that is refused. -/
theorem areGood_or_refuses (allowBlank : Bool) (origin : Text) (number : Nat)
    (contents : List (Except IoError (List UInt8))) :
    (∃ texts, AreGood allowBlank contents texts) ∨
      ∃ before texts bad after fault, contents = before ++ bad :: after ∧
        AreGood allowBlank before texts ∧
        Refuses allowBlank origin (number + before.length) bad fault := by
  have empty : AreGood allowBlank [] [] := ⟨rfl, by simp⟩
  induction contents generalizing number with
  | nil => exact .inl ⟨[], empty⟩
  | cons read rest ih =>
      cases read with
      | error error => exact .inr ⟨[], [], _, rest, _, rfl, empty, .unread error⟩
      | ok bytes =>
          by_cases isText : ∃ text, bytes = Utf8.encode text
          · obtain ⟨text, equal⟩ := isText
            subst equal
            by_cases classified : Line.classify allowBlank text = .malformed
            · exact .inr ⟨[], [], _, rest, _, rfl, empty, .malformed classified⟩
            · rcases ih (number + 1) with
                ⟨texts, good⟩ | ⟨before, texts, bad, after, fault, split, good, refuses⟩
              · exact .inl ⟨text :: texts,
                  areGood_cons_iff.mpr ⟨text, texts, rfl, rfl, classified, good⟩⟩
              · have position : number + (text.lineRead :: before).length =
                    number + 1 + before.length := by
                  rw [List.length_cons]
                  omega
                refine .inr ⟨text.lineRead :: before, text :: texts, bad, after, fault, ?_,
                  areGood_cons_iff.mpr ⟨text, texts, rfl, rfl, classified, good⟩, ?_⟩
                · rw [split]
                  rfl
                · rwa [position]
          · refine .inr ⟨[], [], _, rest, _, rfl, empty, .foreign ?_⟩
            exact fun text equal => isText ⟨text, equal⟩

theorem ofLines_cons_of_text {line : List UInt8} {text : Text}
    (stands : Stream.withoutTerminator line = Utf8.encode text)
    (good : Line.classify allowBlank text ≠ .malformed) (failure : Option IoError)
    (number : Nat) (rest : List (List UInt8)) :
    ofLines allowBlank origin failure number (line :: rest) =
      (ofLines allowBlank origin failure (number + 1) rest).map
        ((Line.classify allowBlank text).defined?.toList ++ ·) := by
  rw [ofLines, stands, Utf8.decode_encode]
  cases classified : Line.classify allowBlank text with
  | definition entry => simp [classified, Line.defined?]
  | comment | blank =>
      simp only [classified, Line.defined?]
      cases ofLines allowBlank origin failure (number + 1) rest <;> rfl
  | malformed => exact absurd classified good

theorem ofLines_of_areGood {failure : Option IoError} {lines : List (List UInt8)}
    (good : AreGood allowBlank (Stream.Transcript.contents ⟨lines, failure⟩) texts)
    (number : Nat) :
    ofLines allowBlank origin failure number lines =
      .ok (texts.filterMap fun text => (Line.classify allowBlank text).defined?) := by
  induction lines generalizing texts number with
  | nil =>
      cases failure with
      | none =>
          have noTexts : texts = [] := by simpa [Stream.Transcript.contents] using good.1.symm
          subst noTexts
          rfl
      | some error =>
          obtain ⟨_, _, -, isError, -⟩ := areGood_cons_iff.mp good
          cases isError
  | cons line rest ih =>
      obtain ⟨text, later, split, own, ownGood, others⟩ := areGood_cons_iff.mp good
      subst split
      rw [ofLines_cons_of_text (Except.ok.inj own) ownGood, ih others, List.filterMap_cons]
      cases (Line.classify allowBlank text).defined? <;> rfl

theorem ofLines_of_refuses {failure : Option IoError} {lines : List (List UInt8)}
    {before after : List (Except IoError (List UInt8))} {number : Nat} {fault : Fault}
    (split : Stream.Transcript.contents ⟨lines, failure⟩ = before ++ read :: after)
    (good : AreGood allowBlank before texts)
    (refuses : Refuses allowBlank origin (number + before.length) read fault) :
    ofLines allowBlank origin failure number lines = .error fault := by
  induction before generalizing lines texts number with
  | nil =>
      cases lines with
      | nil =>
          cases failure with
          | none => cases split
          | some error =>
              cases split
              cases refuses
              rfl
      | cons line rest =>
          have own : Except.ok (Stream.withoutTerminator line) = read :=
            (List.cons.inj split).1
          rw [ofLines]
          cases refuses with
          | unread error => cases own
          | foreign notUtf8 =>
              cases own
              cases decoded : Utf8.decode (Stream.withoutTerminator line) with
              | error _ => rfl
              | ok text => exact absurd (Utf8.decode_eq_ok_iff.mp decoded) (notUtf8 text)
          | malformed classified =>
              rw [Except.ok.inj own, Utf8.decode_encode]
              simp only [classified]
              rfl
  | cons first before ih =>
      obtain ⟨text, later, -, firstEqual, ownGood, others⟩ := areGood_cons_iff.mp good
      subst firstEqual
      cases lines with
      | nil => cases failure <;> cases split
      | cons line rest =>
          obtain ⟨own, restSplit⟩ := List.cons.inj split
          rw [List.length_cons, Nat.add_comm before.length, ← Nat.add_assoc] at refuses
          rw [ofLines_cons_of_text (Except.ok.inj own) ownGood,
            ih restSplit others refuses]
          rfl

end Lines

section Streams

variable {allowBlank : Bool} {origin : Text} {stream : Stream}

theorem ofStream_eq_ok_iff {listed : List Variable} :
    ofStream allowBlank origin stream = .ok listed ↔
      ∃ texts, AreGood allowBlank stream.contents texts ∧
        listed = texts.filterMap fun text => (Line.classify allowBlank text).defined? := by
  constructor
  · intro read
    rcases areGood_or_refuses allowBlank origin 1 stream.contents with
      ⟨texts, good⟩ | ⟨before, texts, bad, after, fault, split, good, refuses⟩
    · rw [ofStream, ofLines_of_areGood good] at read
      exact ⟨texts, good, (Except.ok.inj read).symm⟩
    · rw [ofStream, ofLines_of_refuses split good refuses] at read
      cases read
  · rintro ⟨texts, good, equal⟩
    rw [ofStream, ofLines_of_areGood good, equal]

theorem ofStream_of_failsAt {number : Nat} {fault : Fault}
    (fails : FailsAt allowBlank origin stream.contents number fault) :
    ofStream allowBlank origin stream = .error fault := by
  obtain ⟨before, texts, bad, after, split, good, position, refuses⟩ := fails
  rw [position, Nat.add_comm] at refuses
  exact ofLines_of_refuses split good refuses

theorem ofStream_eq_error_iff {fault : Fault} :
    ofStream allowBlank origin stream = .error fault ↔
      ∃ number, FailsAt allowBlank origin stream.contents number fault := by
  constructor
  · intro read
    rcases areGood_or_refuses allowBlank origin 1 stream.contents with
      ⟨texts, good⟩ | ⟨before, texts, bad, after, other, split, good, refuses⟩
    · rw [ofStream, ofLines_of_areGood good] at read
      cases read
    · rw [Nat.add_comm] at refuses
      have fails : FailsAt allowBlank origin stream.contents (before.length + 1) other :=
        ⟨before, texts, bad, after, split, good, rfl, refuses⟩
      rw [ofStream_of_failsAt fails] at read
      cases read
      exact ⟨_, fails⟩
  · rintro ⟨number, fails⟩
    exact ofStream_of_failsAt fails

/-- Nothing but what line reads give counts. -/
theorem ofStream_eq_of_contents_eq {other : Stream} (same : stream.contents = other.contents) :
    ofStream allowBlank origin stream = ofStream allowBlank origin other := by
  cases read : ofStream allowBlank origin other with
  | ok listed => rwa [ofStream_eq_ok_iff, same, ← ofStream_eq_ok_iff]
  | error fault => rwa [ofStream_eq_error_iff, same, ← ofStream_eq_error_iff]

/-- What comes after the read that is refused does not count. -/
theorem FailsAt.take {contents : List (Except IoError (List UInt8))} {number : Nat}
    {fault : Fault} (fails : FailsAt allowBlank origin contents number fault) :
    FailsAt allowBlank origin (contents.take number) number fault := by
  obtain ⟨before, texts, bad, after, split, good, position, refuses⟩ := fails
  have taken : contents.take number = before ++ [bad] := by
    rw [split, position, List.take_append, List.take_of_length_le (by omega)]
    simp
  exact ⟨before, texts, bad, [], taken, good, position, refuses⟩

theorem FailsAt.of_prefix {contents others : List (Except IoError (List UInt8))}
    {number : Nat} {fault : Fault}
    (fails : FailsAt allowBlank origin contents number fault) (start : contents <+: others) :
    FailsAt allowBlank origin others number fault := by
  obtain ⟨before, texts, bad, after, split, good, position, refuses⟩ := fails
  obtain ⟨rest, joined⟩ := start
  refine ⟨before, texts, bad, after ++ rest, ?_, good, position, refuses⟩
  rw [← joined, split, List.append_assoc, List.cons_append]

end Streams

/-- A stream has definitions exactly when no read of it fails, each line is UTF-8 and none is
malformed; then they are those of its lines in order.  Otherwise the fault is that of the
first of the line reads that breaks this, with its number where the line is malformed.  Two
streams that agree up to and including that read have the same fault, and so has a stream
that goes on in any way after whole lines with the fault among them. -/
theorem first_bad_line_decides (allowBlank : Bool) (origin : Text) :
    (∀ (stream : Stream) (listed : List Variable),
      ofStream allowBlank origin stream = .ok listed ↔
        ∃ texts : List Text,
          stream.contents = texts.map Text.lineRead ∧
          (∀ text ∈ texts, Line.classify allowBlank text ≠ .malformed) ∧
          listed = texts.filterMap fun text => (Line.classify allowBlank text).defined?) ∧
    (∀ (stream : Stream) (fault : Fault),
      ofStream allowBlank origin stream = .error fault ↔
        ∃ number, FailsAt allowBlank origin stream.contents number fault) ∧
    (∀ (first second : Stream) (number : Nat) (fault : Fault),
      FailsAt allowBlank origin first.contents number fault →
      second.contents.take number = first.contents.take number →
      ofStream allowBlank origin second = .error fault) ∧
    ∀ (head rest : Stream) (fault : Fault), Signal.AreWhole head.signals →
      ofStream allowBlank origin head = .error fault →
      ofStream allowBlank origin (head ++ rest) = .error fault := by
  refine ⟨?_, fun stream fault => ofStream_eq_error_iff, ?_, ?_⟩
  · intro stream listed
    rw [ofStream_eq_ok_iff]
    simp only [AreGood, and_assoc]
  · intro first second number fault fails agree
    have start : first.contents.take number <+: second.contents :=
      agree ▸ List.take_prefix number second.contents
    exact ofStream_of_failsAt (fails.take.of_prefix start)
  · intro head rest fault lines failed
    obtain ⟨number, fails⟩ := ofStream_eq_error_iff.mp failed
    have joined : (head ++ rest).signals = head.signals ++ rest.signals :=
      List.flatMap_append
    exact ofStream_of_failsAt (fails.of_prefix (Stream.contents_prefix joined lines))

/-- A malformed third line with other line ends and other reads, before a failed read and
before a line that is no UTF-8; then such a line before a read that fails. -/
theorem first_bad_line_decides_unread :
    let slow : ReadEvent := .failure ⟨.timedOut, "slow".toList⟩
    let retried : ReadEvent := .failure ⟨.interrupted, "again".toList⟩
    let first : Stream := [.data (Utf8.encode "# note\r\nA=1".toList), retried,
      .data (Utf8.encode "\nB\r\nC=2".toList), slow]
    let second : Stream := [.data (Utf8.encode "# note\nA=1\r\nB\n".toList), .data [0xFF, 0x0A]]
    let head : Stream := [.data [0x41, 0x3D], .data [0xFF, 0x0A]]
    (FailsAt true "page".toList first.contents 3 (.malformedLine "page".toList 3) ∧
      second.contents.take 3 = first.contents.take 3 ∧
      ofStream true "page".toList second = .error (.malformedLine "page".toList 3)) ∧
    Signal.AreWhole head.signals ∧
      ofStream true "page".toList head = .error (.ioFailure "page".toList .notUtf8) ∧
      ofStream true "page".toList (head ++ [slow]) =
        .error (.ioFailure "page".toList .notUtf8) := by
  intro slow retried first second head
  obtain ⟨-, -, agreeing, goingOn⟩ := first_bad_line_decides true "page".toList
  have fails : FailsAt true "page".toList first.contents 3 (.malformedLine "page".toList 3) :=
    ⟨["# note".toList, "A=1".toList].map Text.lineRead,
      ["# note".toList, "A=1".toList], Text.lineRead "B".toList,
      [.error ⟨.timedOut, "slow".toList⟩], by decide +kernel, ⟨rfl, by decide⟩, rfl,
      .malformed (by decide)⟩
  have agree : second.contents.take 3 = first.contents.take 3 := by decide +kernel
  have lines : Signal.AreWhole head.signals := by
    intro value last
    cases last
    rfl
  have failed : ofStream true "page".toList head =
      .error (.ioFailure "page".toList .notUtf8) := by decide +kernel
  exact ⟨⟨fails, agree, agreeing first second 3 _ fails agree⟩, lines, failed,
    goingOn head [slow] _ lines failed⟩

end Definitions

end Dotenv
