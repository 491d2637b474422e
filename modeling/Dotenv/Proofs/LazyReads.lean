import Dotenv.Proofs.SubstitutionRun
import Mathlib.Data.List.Flatten
import Mathlib.Order.Bounds.Defs

/-!
# Lines that reads pull

A read pulls no line that it can do without.  What is pulled before the last line is
less than what was asked for, so that the bytes which stay ready are fewer than those of
the last line.
-/

namespace Dotenv

namespace SubstitutionRule

variable {rule : SubstitutionRule} {number : Nat} {line bytes : List UInt8} {fault : Fault}

theorem Fails.not_expands (fails : rule.Fails number line fault) :
    ¬ rule.Expands line bytes := by
  rintro ⟨text, decoded, clean, resolved, -⟩
  cases fails with
  | notUtf8 undecoded =>
      rw [decoded] at undecoded
      cases undecoded
  | stray own strict stray =>
      cases decoded.symm.trans own
      rw [clean strict] at stray
      cases stray
  | undefined own _ absent =>
      cases decoded.symm.trans own
      exact absent resolved

theorem substituteLine_of_expands (expands : rule.Expands line bytes) (number : Nat) :
    rule.substituteLine number line = .ok bytes := by
  obtain ⟨text, decoded, clean, resolved, equal⟩ := expands
  rw [substituteLine, decoded, equal]
  simp only [Text.resolve_of_isClean clean, if_pos resolved]

theorem substituteLine_of_fails (fails : rule.Fails number line fault) (other : Nat) :
    ∃ found, rule.substituteLine other line = .error found := by
  rcases rule.substituteLine_cases other line with
    ⟨bytes, -, expands⟩ | ⟨found, equal, -⟩
  · exact absurd expands fails.not_expands
  · exact ⟨found, equal⟩

/-- The first of some lines fails, if there is one. -/
def StopsAt (rule : SubstitutionRule) : List (List UInt8) → Prop
  | [] => True
  | line :: _ => ∃ number fault, rule.Fails number line fault

theorem Ends.stopsAt {failure : Option IoError} {rest : List (List UInt8)}
    {ending : Option Fault} (ends : rule.Ends failure number rest ending) :
    rule.StopsAt rest := by
  cases rest with
  | nil => exact trivial
  | cons line later =>
      obtain ⟨fault, -, fails⟩ := ends
      exact ⟨number, fault, fails⟩

end SubstitutionRule

namespace Substitution

theorem advance_of_line (rule : SubstitutionRule) {substitution : Substitution}
    {line : List UInt8} {remaining : Stream}
    (read : substitution.stream.readLine = (.ok line, remaining)) (nonempty : line ≠ []) :
    substitution.advance rule =
      match rule.substituteLine (substitution.lineCount + 1) line with
      | .error fault =>
        { substitution with
          stream := remaining, lineCount := substitution.lineCount + 1, fault := some fault }
      | .ok bytes =>
        { substitution with
          stream := remaining, lineCount := substitution.lineCount + 1,
          ready := substitution.ready ++ bytes } := by
  cases line with
  | nil => exact absurd rfl nonempty
  | cons first body =>
      cases result : rule.substituteLine (substitution.lineCount + 1) (first :: body) with
      | error fault => simp only [advance, read, result]
      | ok bytes => simp only [advance, read, result]

theorem advance_of_no_lines (rule : SubstitutionRule) {substitution : Substitution}
    (nothing : substitution.stream.transcript.lines = []) :
    (substitution.advance rule).isOpen = false ∧
      (substitution.advance rule).ready = substitution.ready ∧
      (substitution.advance rule).lineCount = substitution.lineCount := by
  rw [advance]
  split
  · exact ⟨by simp [isOpen], rfl, rfl⟩
  · exact ⟨by simp [isOpen], rfl, rfl⟩
  · rename_i first body remaining read
    rw [Stream.transcript_of_line read (List.cons_ne_nil first body)] at nothing
    cases nothing

theorem fill_of_short (rule : SubstitutionRule) {wanted : Nat} {substitution : Substitution}
    (short : substitution.ready.length < wanted) (opened : substitution.isOpen = true) :
    substitution.fill rule wanted = (substitution.advance rule).fill rule wanted := by
  rw [fill, dif_pos ⟨short, opened⟩]

theorem fill_of_enough (rule : SubstitutionRule) {wanted : Nat} {substitution : Substitution}
    (enough : wanted ≤ substitution.ready.length) :
    substitution.fill rule wanted = substitution := by
  rw [fill, dif_neg]
  intro more
  exact absurd more.1 (Nat.not_lt.mpr enough)

theorem fill_of_closed (rule : SubstitutionRule) (wanted : Nat) {substitution : Substitution}
    (closed : substitution.isOpen = false) :
    substitution.fill rule wanted = substitution := by
  rw [fill, dif_neg]
  intro more
  rw [closed] at more
  cases more.2

theorem read_snd (rule : SubstitutionRule) {size : Nat} (positive : 0 < size)
    (substitution : Substitution) :
    (substitution.read rule size).2 = ((substitution.fill rule size).take size).2 := by
  simp only [read, Nat.ne_of_gt positive, if_false, List.isEmpty_iff]
  by_cases empty : (substitution.fill rule size).ready = []
  · have unchanged : ((substitution.fill rule size).take size).2 =
        substitution.fill rule size := by
      rw [take, empty, List.drop_nil, ← empty]
    rw [if_pos empty, unchanged]
    split <;> rfl
  · rw [if_neg empty]

section Position

variable (rule : SubstitutionRule) (rest : List (List UInt8))

/-- Lines can still be pulled.  Those that were pulled have come to some expansions and the
next ones come to others, up to lines of which the first fails.  Without the last one that
was pulled there would be less than was asked for. -/
structure Underway (pulled ahead : List (List UInt8)) (given asked : Nat)
    (substitution : Substitution) : Prop where
  isOpen : substitution.isOpen = true
  lineCount : substitution.lineCount = pulled.length
  ready : substitution.ready = pulled.flatten.drop given
  given_le : given ≤ pulled.flatten.length
  lines : ∃ lines, substitution.stream.transcript.lines = lines ++ rest ∧
    List.Forall₂ rule.Expands lines ahead
  needed : ∀ earlier last, pulled = earlier ++ [last] → earlier.flatten.length < asked

/-- No more lines can be pulled.  All that come to something were, and the line that fails
if there is one. -/
structure Finished (expansions : List (List UInt8)) (given : Nat)
    (substitution : Substitution) : Prop where
  isOpen : substitution.isOpen = false
  lineCount : substitution.lineCount = expansions.length + (rest.take 1).length
  ready : substitution.ready = expansions.flatten.drop given

/-- Where a substitution stands between reads that gave a number of bytes in all. -/
inductive Stands (expansions : List (List UInt8)) (given : Nat)
    (substitution : Substitution) : Prop
  | underway {pulled ahead : List (List UInt8)} (split : expansions = pulled ++ ahead)
      (here : Underway rule rest pulled ahead given given substitution)
  | finished (all : given = expansions.flatten.length)
      (here : Finished rest expansions given substitution)

end Position

variable {rule : SubstitutionRule} {rest pulled ahead expansions : List (List UInt8)}
  {given asked wanted size : Nat} {substitution : Substitution}

namespace Underway

theorem length_ready
    (here : Underway rule rest pulled ahead given asked substitution) :
    substitution.ready.length + given = pulled.flatten.length := by
  have bound := here.given_le
  rw [here.ready, List.length_drop]
  omega

/-- More can be asked for. -/
theorem mono (here : Underway rule rest pulled ahead given asked substitution)
    {more : Nat} (le : asked ≤ more) :
    Underway rule rest pulled ahead given more substitution :=
  { here with
    needed := fun earlier last equal => Nat.lt_of_lt_of_le (here.needed earlier last equal) le }

/-- A line is pulled because there is not enough without it. -/
theorem advance {bytes : List UInt8}
    (here : Underway rule rest pulled (bytes :: ahead) given asked substitution)
    (short : pulled.flatten.length < asked) :
    Underway rule rest (pulled ++ [bytes]) ahead given asked
      (substitution.advance rule) := by
  obtain ⟨lines, split, all⟩ := here.lines
  cases all with
  | @cons line _ others _ expands all =>
      rw [List.cons_append] at split
      obtain ⟨remaining, read, nonempty, later⟩ := Stream.exists_readLine_of_lines split
      have step := advance_of_line rule read nonempty
      simp only [rule.substituteLine_of_expands expands] at step
      rw [step]
      refine ⟨here.isOpen, ?_, ?_, ?_, ⟨others, later, all⟩, ?_⟩
      · simp [here.lineCount]
      · simp [here.ready, List.drop_append_of_le_length here.given_le]
      · have bound := here.given_le
        rw [List.flatten_append, List.length_append]
        omega
      · intro earlier last equal
        obtain ⟨same, -⟩ := List.append_inj' equal rfl
        rw [← same]
        exact short

theorem advance_last
    (stops : rule.StopsAt rest)
    (here : Underway rule rest pulled [] given asked substitution) :
    Finished rest pulled given (substitution.advance rule) := by
  obtain ⟨lines, split, all⟩ := here.lines
  cases all
  rw [List.nil_append] at split
  cases rest with
  | nil =>
      obtain ⟨closed, ready, lineCount⟩ := advance_of_no_lines rule split
      exact ⟨closed, lineCount.trans here.lineCount, ready.trans here.ready⟩
  | cons line later =>
      obtain ⟨number, fault, fails⟩ := stops
      obtain ⟨remaining, read, nonempty, -⟩ := Stream.exists_readLine_of_lines split
      obtain ⟨found, failed⟩ :=
        SubstitutionRule.substituteLine_of_fails fails (substitution.lineCount + 1)
      have step := advance_of_line rule read nonempty
      simp only [failed] at step
      rw [step]
      exact ⟨by simp [Substitution.isOpen], congrArg (· + 1) here.lineCount, here.ready⟩

/-- Filling pulls lines up to the first with which there is enough, or all of them. -/
theorem fill
    (stops : rule.StopsAt rest)
    (here : Underway rule rest pulled ahead given (given + wanted) substitution) :
    (∃ more later, ahead = more ++ later ∧
      given + wanted ≤ (pulled ++ more).flatten.length ∧
      Underway rule rest (pulled ++ more) later given (given + wanted)
        (substitution.fill rule wanted)) ∨
    ((pulled ++ ahead).flatten.length < given + wanted ∧
      Finished rest (pulled ++ ahead) given (substitution.fill rule wanted)) := by
  have length := here.length_ready
  induction ahead generalizing pulled substitution with
  | nil =>
      by_cases enough : wanted ≤ substitution.ready.length
      · rw [fill_of_enough rule enough]
        refine .inl ⟨[], [], rfl, ?_, by rwa [List.append_nil]⟩
        rw [List.append_nil]
        omega
      · rw [fill_of_short rule (by omega) here.isOpen, List.append_nil]
        have last := here.advance_last stops
        rw [fill_of_closed rule wanted last.isOpen]
        exact .inr ⟨by omega, last⟩
  | cons bytes ahead ih =>
      by_cases enough : wanted ≤ substitution.ready.length
      · rw [fill_of_enough rule enough]
        refine .inl ⟨[], bytes :: ahead, rfl, ?_, by rwa [List.append_nil]⟩
        rw [List.append_nil]
        omega
      · rw [fill_of_short rule (by omega) here.isOpen]
        have next := here.advance (by omega)
        have whole : pulled ++ bytes :: ahead = pulled ++ [bytes] ++ ahead := by simp
        rw [whole]
        rcases ih next next.length_ready with ⟨more, later, split, reached, there⟩ | last
        · refine .inl ⟨bytes :: more, later, by rw [split, List.cons_append], ?_⟩
          rw [List.append_assoc, List.singleton_append] at reached there
          exact ⟨reached, there⟩
        · exact .inr last

theorem take (here : Underway rule rest pulled ahead given (given + size) substitution)
    (enough : given + size ≤ pulled.flatten.length) :
    Underway rule rest pulled ahead (given + size) (given + size) (substitution.take size).2 :=
  { isOpen := here.isOpen
    lineCount := here.lineCount
    ready := by rw [Substitution.take, here.ready, List.drop_drop]
    given_le := enough
    lines := here.lines
    needed := here.needed }

end Underway

theorem delivered_read_fill (rule : SubstitutionRule) (size : Nat)
    (substitution : Substitution) :
    delivered (substitution.read rule size).1 =
      (substitution.fill rule size).ready.take size := by
  rw [delivered_read, take_ready_fill]

namespace Stands

/-- A read of some bytes pulls as few lines as it can, or there are not so many bytes. -/
theorem read
    (stops : rule.StopsAt rest)
    (positive : 0 < size) (here : Stands rule rest expansions given substitution) :
    (∃ pulled ahead, expansions = pulled ++ ahead ∧
      (delivered (substitution.read rule size).1).length = size ∧
      Underway rule rest pulled ahead (given + size) (given + size)
        (substitution.read rule size).2) ∨
    (expansions.flatten.length < given + size ∧
      given + (delivered (substitution.read rule size).1).length = expansions.flatten.length ∧
      Finished rest expansions expansions.flatten.length (substitution.read rule size).2) := by
  rw [read_snd rule positive, delivered_read_fill, List.length_take]
  cases here with
  | @underway pulled ahead split here =>
      have bound := here.given_le
      rcases (here.mono (Nat.le_add_right given size)).fill stops with
        ⟨more, later, equal, enough, there⟩ | ⟨short, last⟩
      · have length := there.length_ready
        refine .inl ⟨pulled ++ more, later, ?_, by omega, there.take enough⟩
        rw [split, equal, List.append_assoc]
      · have whole := congrArg (fun list => list.flatten.length) split
        rw [List.flatten_append, List.length_append] at whole
        rw [← split] at short last
        have length := congrArg List.length last.ready
        rw [List.length_drop] at length
        refine .inr ⟨short, by omega, last.isOpen, last.lineCount, ?_⟩
        rw [Substitution.take, last.ready, List.drop_drop, List.drop_length]
        exact List.drop_eq_nil_of_le (Nat.le_of_lt short)
  | finished all here =>
      have ready : substitution.ready = [] := by rw [here.ready, all, List.drop_length]
      rw [fill_of_closed rule size here.isOpen, ready, List.length_nil]
      refine .inr ⟨by omega, by omega, here.isOpen, here.lineCount, ?_⟩
      rw [Substitution.take, ready, List.drop_nil, List.drop_length]

theorem reads
    (stops : rule.StopsAt rest)
    (sizes : List Nat) (here : Stands rule rest expansions given substitution) :
    Stands rule rest expansions
      (given + ((reads rule sizes substitution).1.flatMap delivered).length)
      (reads rule sizes substitution).2 := by
  induction sizes generalizing given substitution with
  | nil => exact here
  | cons size sizes ih =>
      have next : Stands rule rest expansions
          (given + (delivered (substitution.read rule size).1).length)
          (substitution.read rule size).2 := by
        rcases Nat.eq_zero_or_pos size with zero | positive
        · subst zero
          exact here
        · rcases here.read stops positive with
            ⟨pulled, ahead, split, length, there⟩ | ⟨-, all, last⟩
          · rw [length]
            exact .underway split there
          · rw [all]
            exact .finished rfl last
      have later := ih next
      rw [Substitution.reads, List.flatMap_cons, List.length_append, ← Nat.add_assoc]
      exact later

end Stands

theorem stands_start (rule : SubstitutionRule) {stream : Stream}
    {before rest expansions : List (List UInt8)}
    (split : stream.transcript.lines = before ++ rest)
    (all : List.Forall₂ rule.Expands before expansions) :
    Stands rule rest expansions 0 (start stream) := by
  refine .underway (List.nil_append expansions).symm
    ⟨rfl, rfl, rfl, Nat.le_refl 0, ⟨before, split, all⟩, ?_⟩
  intro earlier last equal
  simp at equal

/-- A number of expanded lines is enough for a number of bytes. -/
def Covers (expansions : List (List UInt8)) (asked count : Nat) : Prop :=
  count ≤ expansions.length ∧ asked ≤ (expansions.take count).flatten.length

theorem Underway.isLeast (here : Underway rule rest pulled ahead asked asked substitution) :
    IsLeast {count | Covers (pulled ++ ahead) asked count} substitution.lineCount := by
  constructor
  · refine ⟨?_, ?_⟩
    · rw [here.lineCount, List.length_append]
      omega
    · rw [here.lineCount, List.take_left]
      exact here.given_le
  · rintro count ⟨-, enough⟩
    by_contra fewer
    rw [here.lineCount] at fewer
    rcases pulled.eq_nil_or_concat' with empty | ⟨earlier, last, equal⟩
    · rw [empty, List.length_nil] at fewer
      omega
    · have needed := here.needed earlier last equal
      have bound : count ≤ earlier.length := by
        rw [equal, List.length_append, List.length_singleton] at fewer
        omega
      have part := (List.take_sublist count earlier).flatten.length_le
      rw [equal, List.append_assoc, List.take_append_of_le_length bound] at enough
      omega

/-- What stays ready is less than the last line that was pulled came to. -/
theorem Underway.length_ready_lt (positive : 0 < asked)
    (here : Underway rule rest pulled ahead asked asked substitution) :
    ∃ last, pulled.getLast? = some last ∧ substitution.ready.length < last.length := by
  have length := here.length_ready
  have bound := here.given_le
  rcases pulled.eq_nil_or_concat' with empty | ⟨earlier, last, equal⟩
  · rw [empty, List.flatten_nil, List.length_nil] at bound
    omega
  · have needed := here.needed earlier last equal
    refine ⟨last, by rw [equal, List.getLast?_concat], ?_⟩
    rw [equal, List.flatten_append, List.length_append, List.flatten_singleton] at length
    omega

/-- After each read of some bytes, the number of lines pulled is the least with which there
is as much as was asked for in all, if some number of lines before the first failing one
is enough; otherwise they are all, and the failing line if there is one.  The bytes that
stay ready are none, or fewer than the last line came to. -/
theorem reads_pull_least (rule : SubstitutionRule) (stream : Stream) :
    ∃ before rest expansions ending,
      stream.transcript.lines = before ++ rest ∧
      List.Forall₂ rule.Expands before expansions ∧
      rule.Ends stream.transcript.failure (before.length + 1) rest ending ∧
      ∀ sizes size, 0 < size →
        let earlier := reads rule sizes (start stream)
        let after := (earlier.2.read rule size).2
        let asked := (earlier.1.flatMap delivered).length + size
        ((∃ count, Covers expansions asked count) →
          IsLeast {count | Covers expansions asked count} after.lineCount) ∧
        ((¬∃ count, Covers expansions asked count) →
          after.lineCount = before.length + (rest.take 1).length) ∧
        (after.ready.length = 0 ∨
          ∃ last, (expansions.take after.lineCount).getLast? = some last ∧
            after.ready.length < last.length) := by
  obtain ⟨before, rest, expansions, split, all, -, ending⟩ :=
    rule.exists_outcome stream.transcript.failure 1 stream.transcript.lines
  rw [Nat.add_comm] at ending
  refine ⟨before, rest, expansions, _, split, all, ending, ?_⟩
  intro sizes size positive earlier after asked
  have stops : rule.StopsAt rest := SubstitutionRule.Ends.stopsAt ending
  have here := (stands_start rule split all).reads stops sizes
  rw [Nat.zero_add] at here
  rcases here.read stops positive with
    ⟨pulled, ahead, equal, -, there⟩ | ⟨short, -, last⟩
  · have least := there.isLeast
    rw [← equal] at least
    refine ⟨fun _ => least, fun none => absurd ⟨_, least.1⟩ none, .inr ?_⟩
    obtain ⟨line, isLast, fewer⟩ := there.length_ready_lt (Nat.add_pos_right _ positive)
    refine ⟨line, ?_, fewer⟩
    rw [there.lineCount, equal, List.take_left]
    exact isLast
  · have none : ¬∃ count, Covers expansions asked count := by
      rintro ⟨count, -, enough⟩
      have part := (List.take_sublist count expansions).flatten.length_le
      exact absurd (Nat.le_trans enough part) (Nat.not_le.mpr short)
    refine ⟨fun some => absurd some none, fun _ => ?_, .inl ?_⟩
    · rw [all.length_eq]
      exact last.lineCount
    · rw [last.ready, List.drop_length, List.length_nil]

end Substitution

end Dotenv
