import Dotenv.Proofs.Resolution
import Dotenv.Proofs.Transcript
import Dotenv.Substitution
import Mathlib.Data.List.Forall2

/-!
# Runs of a substitution

Reads of any sizes deliver one fixed output, and after it one fixed ending.  The
invariant is what a substitution still owes its reader: the bytes that are
ready, followed by the substituted lines up to the first that fails.  Pulling a
line moves bytes from the second part to the first and changes nothing in the
whole.
-/

namespace Dotenv

namespace SubstitutionRule

/-- A line decodes, has no stray dollar sign where that counts and refers to
nothing absent, and these are its bytes after substitution. -/
def Expands (rule : SubstitutionRule) (line bytes : List UInt8) : Prop :=
  ∃ text, Utf8.decode line = .ok text ∧
    text.IsClean rule.strict ∧
    (text.expand rule.map).missing = [] ∧
    bytes = Utf8.encode (text.expand rule.map).text

/-- The fault of a line that cannot be substituted.  Decoding comes before the
dollar signs and these before the names. -/
inductive Fails (rule : SubstitutionRule) (number : Nat) (line : List UInt8) :
    Fault → Prop
  | notUtf8 {fault : Utf8.Fault} (undecoded : Utf8.decode line = .error fault) :
      Fails rule number line
        (.ioFailure (Fault.lineOrigin rule.origin number)
          ⟨.invalidData, fault.message⟩)
  | stray {text : Text} {before : Nat} (decoded : Utf8.decode line = .ok text)
      (strict : rule.strict = true) (stray : Escape.stray? text = some before) :
      Fails rule number line (.invalidReference (some number) (before + 1))
  | undefined {text : Text} (decoded : Utf8.decode line = .ok text)
      (clean : text.IsClean rule.strict)
      (absent : (text.expand rule.map).missing ≠ []) :
      Fails rule number line
        (.undefinedReference none (Fault.lineOrigin rule.origin number)
          (text.expand rule.map).missing)

theorem substituteLine_cases (rule : SubstitutionRule) (number : Nat)
    (line : List UInt8) :
    (∃ bytes, rule.substituteLine number line = .ok bytes ∧
      rule.Expands line bytes) ∨
    (∃ fault, rule.substituteLine number line = .error fault ∧
      rule.Fails number line fault) := by
  unfold substituteLine
  cases decoded : Utf8.decode line with
  | error fault => exact .inr ⟨_, rfl, .notUtf8 decoded⟩
  | ok text =>
      rcases text.isClean_or_stray rule.strict with clean | ⟨strict, before, stray⟩
      · simp only [Text.resolve_of_isClean clean]
        by_cases resolved : (text.expand rule.map).missing = []
        · refine .inl ⟨_, ?_, text, decoded, clean, resolved, rfl⟩
          rw [if_pos resolved]
        · refine .inr ⟨_, ?_, .undefined decoded clean resolved⟩
          rw [if_neg resolved]
          rfl
      · refine .inr ⟨_, ?_, .stray decoded strict stray⟩
        simp only [strict, Text.resolve_of_stray stray, Fault.onLine]

/-- What the rest of a transcript, whose first line has a given number, comes to:
the substituted bytes and the fault after them. -/
def outcome (rule : SubstitutionRule) (failure : Option IoError) (number : Nat) :
    List (List UInt8) → List UInt8 × Option Fault
  | [] => ([], failure.map (.ioFailure rule.origin))
  | line :: rest =>
    match rule.substituteLine number line with
    | .error fault => ([], some fault)
    | .ok bytes =>
      let later := outcome rule failure (number + 1) rest
      (bytes ++ later.1, later.2)

theorem outcome_cons_of_ok {rule : SubstitutionRule} {failure : Option IoError}
    {number : Nat} {line bytes : List UInt8}
    (substituted : rule.substituteLine number line = .ok bytes) (rest : List (List UInt8)) :
    rule.outcome failure number (line :: rest) =
      (bytes ++ (rule.outcome failure (number + 1) rest).1,
        (rule.outcome failure (number + 1) rest).2) := by
  rw [outcome, substituted]

theorem outcome_cons_of_error {rule : SubstitutionRule} {failure : Option IoError}
    {number : Nat} {line : List UInt8} {fault : Fault}
    (failed : rule.substituteLine number line = .error fault) (rest : List (List UInt8)) :
    rule.outcome failure number (line :: rest) = ([], some fault) := by
  rw [outcome, failed]

/-- How a transcript ends for a reader where a line has a given number: with the
fault of that line, or after the last line with the failure of the stream. -/
def Ends (rule : SubstitutionRule) (failure : Option IoError) (number : Nat) :
    List (List UInt8) → Option Fault → Prop
  | [], ending => ending = failure.map (.ioFailure rule.origin)
  | line :: _, ending => ∃ fault, ending = some fault ∧ rule.Fails number line fault

theorem exists_outcome (rule : SubstitutionRule) (failure : Option IoError)
    (number : Nat) (lines : List (List UInt8)) :
    ∃ before rest expansions, lines = before ++ rest ∧
      List.Forall₂ rule.Expands before expansions ∧
      (rule.outcome failure number lines).1 = expansions.flatten ∧
      rule.Ends failure (number + before.length) rest
        (rule.outcome failure number lines).2 := by
  induction lines generalizing number with
  | nil => exact ⟨[], [], [], rfl, .nil, rfl, rfl⟩
  | cons line lines ih =>
      rcases rule.substituteLine_cases number line with
        ⟨bytes, equal, expands⟩ | ⟨fault, equal, fails⟩
      · obtain ⟨before, rest, expansions, split, all, output, ending⟩ := ih (number + 1)
        refine ⟨line :: before, rest, bytes :: expansions, ?_, .cons expands all, ?_, ?_⟩
        · rw [split, List.cons_append]
        · simp only [outcome, equal, output, List.flatten_cons]
        · have position : number + (line :: before).length =
              number + 1 + before.length := by
            rw [List.length_cons]
            omega
          rw [position]
          simpa only [outcome, equal] using ending
      · refine ⟨[], line :: lines, [], rfl, .nil, ?_, fault, ?_, fails⟩
        · simp only [outcome, equal, List.flatten_nil]
        · simp only [outcome, equal]

end SubstitutionRule

namespace Substitution

/-- What a substitution has not delivered yet, with the fault after it. -/
def owed (rule : SubstitutionRule) (substitution : Substitution) :
    List UInt8 × Option Fault :=
  if substitution.isOpen then
    let transcript := substitution.stream.transcript
    let later :=
      rule.outcome transcript.failure (substitution.lineCount + 1) transcript.lines
    (substitution.ready ++ later.1, later.2)
  else
    (substitution.ready, substitution.fault)

theorem owed_of_closed (rule : SubstitutionRule) {substitution : Substitution}
    (closed : substitution.isOpen = false) :
    substitution.owed rule = (substitution.ready, substitution.fault) := by
  rw [owed, closed]
  rfl

/-- Pulling a line changes nothing in what is owed. -/
theorem owed_advance (rule : SubstitutionRule) {substitution : Substitution}
    (opened : substitution.isOpen = true) :
    (substitution.advance rule).owed rule = substitution.owed rule := by
  obtain ⟨notEnded, noFault⟩ : substitution.ended = false ∧ substitution.fault = none := by
    simpa [isOpen] using opened
  unfold advance
  split
  · rename_i error rest read
    rw [owed_of_closed _ (by simp [isOpen])]
    simp [owed, opened, Stream.transcript_of_error read, SubstitutionRule.outcome]
  · rename_i rest read
    rw [owed_of_closed _ (by simp [isOpen])]
    simp [owed, opened, Stream.transcript_of_end read, SubstitutionRule.outcome, noFault]
  · rename_i first others rest read
    have lines := Stream.transcript_of_line read (List.cons_ne_nil first others)
    dsimp only
    split
    · rename_i fault failed
      rw [owed_of_closed _ (by simp [isOpen])]
      simp [owed, opened, lines, SubstitutionRule.outcome, failed]
    · rename_i bytes substituted
      have stillOpen : isOpen
          { substitution with
            stream := rest, lineCount := substitution.lineCount + 1,
            ready := substitution.ready ++ bytes } = true := opened
      simp [owed, opened, stillOpen, lines, SubstitutionRule.outcome, substituted]

theorem owed_fill (rule : SubstitutionRule) (wanted : Nat)
    (substitution : Substitution) :
    (substitution.fill rule wanted).owed rule = substitution.owed rule := by
  fun_induction fill rule wanted substitution with
  | case1 substitution more ih => rw [ih, owed_advance rule more.2]
  | case2 substitution => rfl

/-- Filling stops once enough is ready or nothing more can be pulled. -/
theorem filled (rule : SubstitutionRule) (wanted : Nat) (substitution : Substitution) :
    wanted ≤ (substitution.fill rule wanted).ready.length ∨
      (substitution.fill rule wanted).isOpen = false := by
  fun_induction fill rule wanted substitution with
  | case1 substitution more ih => exact ih
  | case2 substitution enough =>
      by_cases opened : substitution.isOpen = true
      · left
        by_contra short
        exact enough ⟨by omega, opened⟩
      · exact .inr (by simpa using opened)

/-- Once filled, the ready bytes begin what is owed as far as a read can ask. -/
theorem take_ready_fill (rule : SubstitutionRule) (wanted : Nat)
    (substitution : Substitution) :
    (substitution.fill rule wanted).ready.take wanted =
      (substitution.owed rule).1.take wanted := by
  rw [← owed_fill rule wanted substitution]
  rcases filled rule wanted substitution with enough | closed
  · unfold owed
    split
    · rw [List.take_append_of_le_length enough]
    · rfl
  · rw [owed_of_closed rule closed]

theorem closed_of_nothing_ready (rule : SubstitutionRule) {wanted : Nat}
    {substitution : Substitution} (positive : 0 < wanted)
    (empty : (substitution.fill rule wanted).ready = []) :
    (substitution.fill rule wanted).isOpen = false := by
  rcases filled rule wanted substitution with enough | closed
  · rw [empty, List.length_nil] at enough
    omega
  · exact closed

theorem owed_take (rule : SubstitutionRule) {size : Nat} {substitution : Substitution}
    (enough : size ≤ substitution.ready.length ∨ substitution.isOpen = false) :
    (substitution.take size).2.owed rule =
      ((substitution.owed rule).1.drop size, (substitution.owed rule).2) := by
  have sameOpen : (substitution.take size).2.isOpen = substitution.isOpen := rfl
  rcases enough with enough | closed
  · unfold owed
    rw [sameOpen]
    split
    · simp only [take, List.drop_append_of_le_length enough]
    · rfl
  · rw [owed_of_closed rule closed, owed_of_closed rule (sameOpen.trans closed)]
    rfl

/-- What a read gives a reader to whom everything is delivered. -/
def atEnd : Option Fault → Except ReadError (List UInt8)
  | none => .ok []
  | some fault => .error (.carried fault)

/-- A read delivers the next bytes of what is owed, and the ending where there
are none. -/
theorem read_fst (rule : SubstitutionRule) {size : Nat} (positive : 0 < size)
    (substitution : Substitution) :
    (substitution.read rule size).1 =
      if (substitution.owed rule).1 = [] then
        atEnd (substitution.owed rule).2
      else
        .ok ((substitution.owed rule).1.take size) := by
  have taken := take_ready_fill rule size substitution
  simp only [read, Nat.ne_of_gt positive, if_false, List.isEmpty_iff]
  by_cases empty : (substitution.fill rule size).ready = []
  · have closed := closed_of_nothing_ready rule positive empty
    rw [← owed_fill rule size substitution, owed_of_closed rule closed]
    simp only [empty, if_true]
    cases (substitution.fill rule size).fault <;> rfl
  · have owing : (substitution.owed rule).1 ≠ [] := by
      intro nothing
      rw [nothing, List.take_nil, List.take_eq_nil_iff] at taken
      rcases taken with zero | nothing
      · omega
      · exact empty nothing
    simp only [empty, owing, if_false, ← taken]
    rfl

theorem owed_read (rule : SubstitutionRule) (size : Nat) (substitution : Substitution) :
    (substitution.read rule size).2.owed rule =
      ((substitution.owed rule).1.drop size, (substitution.owed rule).2) := by
  by_cases zero : size = 0
  · subst zero
    rfl
  · rw [← owed_fill rule size substitution]
    simp only [read, zero, if_false, List.isEmpty_iff]
    by_cases empty : (substitution.fill rule size).ready = []
    · have closed := closed_of_nothing_ready rule (Nat.pos_of_ne_zero zero) empty
      have unchanged : (substitution.fill rule size).owed rule =
          (((substitution.fill rule size).owed rule).1.drop size,
            ((substitution.fill rule size).owed rule).2) := by
        rw [owed_of_closed rule closed, empty, List.drop_nil]
      simp only [empty, if_true]
      split <;> exact unchanged
    · simp only [empty, if_false]
      exact owed_take rule (filled rule size substitution)

/-- The bytes that a read delivers. -/
def delivered : Except ReadError (List UInt8) → List UInt8
  | .ok bytes => bytes
  | .error _ => []

theorem delivered_read (rule : SubstitutionRule) (size : Nat)
    (substitution : Substitution) :
    delivered (substitution.read rule size).1 =
      (substitution.owed rule).1.take size := by
  rcases Nat.eq_zero_or_pos size with zero | positive
  · subst zero
    rfl
  · rw [read_fst rule positive]
    split
    · rename_i nothing
      rw [nothing, List.take_nil]
      cases (substitution.owed rule).2 <;> rfl
    · rfl

/-- Reads of given sizes one after the other: what each of them gives, and the
substitution after them. -/
def reads (rule : SubstitutionRule) :
    List Nat → Substitution → List (Except ReadError (List UInt8)) × Substitution
  | [], substitution => ([], substitution)
  | size :: sizes, substitution =>
    let read := substitution.read rule size
    let later := reads rule sizes read.2
    (read.1 :: later.1, later.2)

/-- Reads move bytes from what is owed to what is delivered, in order, and leave
the ending as it is. -/
theorem owed_reads (rule : SubstitutionRule) (sizes : List Nat)
    (substitution : Substitution) :
    (reads rule sizes substitution).1.flatMap delivered ++
        ((reads rule sizes substitution).2.owed rule).1 =
      (substitution.owed rule).1 ∧
    ((reads rule sizes substitution).2.owed rule).2 = (substitution.owed rule).2 := by
  induction sizes generalizing substitution with
  | nil => exact ⟨rfl, rfl⟩
  | cons size sizes ih =>
      obtain ⟨bytes, ending⟩ := ih (substitution.read rule size).2
      rw [owed_read] at bytes ending
      refine ⟨?_, ending⟩
      rw [reads, List.flatMap_cons, List.append_assoc, bytes, delivered_read,
        List.take_append_drop]

end Substitution

end Dotenv
