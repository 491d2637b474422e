import Dotenv.Proofs.Pieces
import Dotenv.Proofs.SubstitutionRun
import Dotenv.Proofs.TextLines

/-!
# Substitution in a text

No reference reaches over the end of a line.  So a text that is substituted line by
line comes to its expansion as a whole, up to the first line that refers to an
absent name.
-/

namespace Dotenv

namespace Piece

/-- The absent names that pieces refer to, each with the number of line feeds before
the reference, where a number of them stands before the first piece. -/
def absentNames (map : VariableMap) (lineFeeds : Nat) : List Piece → List (Nat × Text)
  | [] => []
  | piece :: rest =>
    (piece.missing? map).toList.map (lineFeeds, ·) ++
      absentNames map (lineFeeds + piece.text.count '\n') rest

variable (map : VariableMap)

theorem map_snd_absentNames (lineFeeds : Nat) (pieces : List Piece) :
    (absentNames map lineFeeds pieces).map Prod.snd = pieces.filterMap (missing? map) := by
  induction pieces generalizing lineFeeds with
  | nil => rfl
  | cons piece rest ih =>
      rw [absentNames, List.map_append, ih]
      cases absent : piece.missing? map with
      | none => simp [absent]
      | some name => simp [absent]

theorem absentNames_append (lineFeeds : Nat) (first second : List Piece) :
    absentNames map lineFeeds (first ++ second) =
      absentNames map lineFeeds first ++
        absentNames map (lineFeeds + (first.flatMap Piece.text).count '\n') second := by
  induction first generalizing lineFeeds with
  | nil => simp [absentNames]
  | cons piece rest ih =>
      simp [absentNames, ih, Nat.add_assoc]

theorem le_of_mem_absentNames {lineFeeds : Nat} {pieces : List Piece} {item : Nat × Text}
    (member : item ∈ absentNames map lineFeeds pieces) : lineFeeds ≤ item.1 := by
  induction pieces generalizing lineFeeds with
  | nil => cases member
  | cons piece rest ih =>
      rcases List.mem_append.mp member with own | later
      · obtain ⟨name, -, equal⟩ := List.mem_map.mp own
        subst equal
        exact Nat.le_refl lineFeeds
      · have bound := ih later
        omega

/-- On one line all references have the same number of line feeds before them. -/
theorem absentNames_of_no_lineFeed (lineFeeds : Nat) {pieces : List Piece}
    (single : '\n' ∉ pieces.flatMap Piece.text) :
    absentNames map lineFeeds pieces =
      (pieces.filterMap (missing? map)).map (lineFeeds, ·) := by
  induction pieces with
  | nil => rfl
  | cons piece rest ih =>
      rw [List.flatMap_cons, List.mem_append, not_or] at single
      have none : piece.text.count '\n' = 0 := List.count_eq_zero.mpr single.1
      rw [absentNames, none, Nat.add_zero, ih single.2]
      cases absent : piece.missing? map with
      | none => simp [absent]
      | some name => simp [absent]

end Piece

namespace Text

/-- The absent names that a text refers to, each with the number of line feeds before
the reference. -/
def absentNames (map : VariableMap) (text : Text) : List (Nat × Text) :=
  Piece.absentNames map 0 text.pieces

theorem map_snd_absentNames (map : VariableMap) (text : Text) :
    (text.absentNames map).map Prod.snd = (text.expand map).missing :=
  Piece.map_snd_absentNames map 0 text.pieces

section Expansion

variable (map : VariableMap) (lineFeeds : Nat) {body : Text}

theorem absentNames_line (single : '\n' ∉ body) :
    Piece.absentNames map lineFeeds (pieces body) =
      (expand map body).missing.map (lineFeeds, ·) := by
  apply Piece.absentNames_of_no_lineFeed
  rwa [flatMap_text_pieces]

theorem absentNames_append (single : '\n' ∉ body) (rest : Text) :
    Piece.absentNames map lineFeeds (pieces (body ++ '\n' :: rest)) =
      (expand map body).missing.map (lineFeeds, ·) ++
        Piece.absentNames map (lineFeeds + 1) (pieces rest) := by
  have inLine : (body.pieces.flatMap Piece.text).count '\n' = 0 := by
    rw [flatMap_text_pieces]
    exact List.count_eq_zero.mpr single
  rw [pieces_append_barrier Reference.isBarrier_lineFeed, Piece.absentNames_append,
    absentNames_line map lineFeeds single, inLine,
    pieces_cons_of_ne_dollar (by decide : '\n' ≠ '$')]
  rfl

theorem expand_append_line (body rest : Text) :
    expand map (body ++ '\n' :: rest) =
      ⟨(expand map body).text ++ '\n' :: (expand map rest).text,
        (expand map body).missing ++ (expand map rest).missing⟩ := by
  rw [expand_append_barrier Reference.isBarrier_lineFeed,
    expand_cons_of_ne_dollar (by decide : '\n' ≠ '$')]

end Expansion

end Text

namespace SubstitutionRule

variable {rule : SubstitutionRule}

theorem substituteLine_encode (lenient : rule.strict = false) (number : Nat) (line : Text) :
    rule.substituteLine number (Utf8.encode line) =
      if (line.expand rule.map).missing = [] then
        .ok (Utf8.encode (line.expand rule.map).text)
      else
        .error (.undefinedReference none (Fault.lineOrigin rule.origin number)
          (line.expand rule.map).missing) := by
  have clean : line.IsClean rule.strict := by
    intro strict
    rw [lenient] at strict
    cases strict
  rw [substituteLine, Utf8.decode_encode]
  simp only [Text.resolve_of_isClean clean]
  by_cases resolved : (line.expand rule.map).missing = []
  · simp only [if_pos resolved]
  · simp only [if_neg resolved]
    rfl

theorem outcome_cons_of_resolved (lenient : rule.strict = false) (number : Nat)
    {line : Text} (resolved : (line.expand rule.map).missing = []) (rest : List (List UInt8)) :
    rule.outcome none number (Utf8.encode line :: rest) =
      (Utf8.encode (line.expand rule.map).text ++ (rule.outcome none (number + 1) rest).1,
        (rule.outcome none (number + 1) rest).2) := by
  rw [outcome, substituteLine_encode lenient, if_pos resolved]

theorem outcome_cons_of_missing (lenient : rule.strict = false) (number : Nat)
    {line : Text} (absent : (line.expand rule.map).missing ≠ []) (rest : List (List UInt8)) :
    rule.outcome none number (Utf8.encode line :: rest) =
      ([], some (.undefinedReference none (Fault.lineOrigin rule.origin number)
        (line.expand rule.map).missing)) := by
  rw [outcome, substituteLine_encode lenient, if_neg absent]

/-- What a text comes to where its absent names are given with the numbers of line feeds
before them: its expansion, or that of the lines before the first absent name, and then
the fault of that line. -/
def textOutcome (rule : SubstitutionRule) (text : Text) (lineFeeds : Nat) :
    List (Nat × Text) → List UInt8 × Option Fault
  | [] => (Utf8.encode (text.expand rule.map).text, none)
  | (before, name) :: rest =>
    (Utf8.encode (Text.expand rule.map (text.lines.take (before - lineFeeds)).flatten).text,
      some (.undefinedReference none (Fault.lineOrigin rule.origin (before + 1))
        ((((before, name) :: rest).filter fun item => item.1 = before).map Prod.snd)))

/-- The first line decides alone where it refers to an absent name. -/
theorem textOutcome_of_missing (rule : SubstitutionRule) (text : Text) {lineFeeds : Nat}
    {missing : List Text} (nonempty : missing ≠ []) {later : List (Nat × Text)}
    (after : ∀ item ∈ later, lineFeeds < item.1) :
    rule.textOutcome text lineFeeds (missing.map (lineFeeds, ·) ++ later) =
      ([], some (.undefinedReference none (Fault.lineOrigin rule.origin (lineFeeds + 1))
        missing)) := by
  have own : (missing.map (lineFeeds, ·)).filter (fun item => item.1 = lineFeeds) =
      missing.map (lineFeeds, ·) := by
    apply List.filter_eq_self.mpr
    simp
  have others : later.filter (fun item => item.1 = lineFeeds) = [] := by
    apply List.filter_eq_nil_iff.mpr
    intro item member
    have bound := after item member
    simp only [decide_eq_true_eq]
    omega
  have onLine : ((missing.map (lineFeeds, ·) ++ later).filter
      fun item => item.1 = lineFeeds).map Prod.snd = missing := by
    rw [List.filter_append, own, others, List.append_nil, List.map_map]
    exact List.map_id missing
  cases missing with
  | nil => exact absurd rfl nonempty
  | cons name rest =>
      rw [List.map_cons, List.cons_append] at onLine ⊢
      rw [textOutcome, onLine, Nat.sub_self, List.take_zero, List.flatten_nil, Text.expand_nil]
      rfl

/-- A first line without absent names joins what the rest comes to. -/
theorem textOutcome_append (lineFeeds : Nat) {body : Text} (single : '\n' ∉ body)
    (rest : Text) {absent : List (Nat × Text)}
    (after : ∀ item ∈ absent, lineFeeds + 1 ≤ item.1) :
    rule.textOutcome (body ++ '\n' :: rest) lineFeeds absent =
      (Utf8.encode (Text.expand rule.map (body ++ ['\n'])).text ++
          (rule.textOutcome rest (lineFeeds + 1) absent).1,
        (rule.textOutcome rest (lineFeeds + 1) absent).2) := by
  cases absent with
  | nil => simp [textOutcome, Text.expand_append_line]
  | cons item later =>
      obtain ⟨before, name⟩ := item
      have bound : lineFeeds + 1 ≤ before := after (before, name) List.mem_cons_self
      have position : before - lineFeeds = before - (lineFeeds + 1) + 1 := by omega
      simp only [textOutcome, Text.lines_append single, position, List.take_succ_cons,
        List.flatten_cons, List.append_assoc, List.singleton_append,
        Text.expand_append_line, Text.expand_nil]
      simp

theorem outcome_lines (lenient : rule.strict = false) (lineFeeds : Nat) (text : Text) :
    rule.outcome none (lineFeeds + 1) (text.lines.map Utf8.encode) =
      rule.textOutcome text lineFeeds
        (Piece.absentNames rule.map lineFeeds text.pieces) := by
  induction text using Text.induction_on_lines generalizing lineFeeds with
  | empty =>
      rw [Text.pieces_nil, Piece.absentNames, textOutcome, Text.expand_nil]
      rfl
  | last body nonempty single =>
      rw [Text.lines_of_no_lineFeed nonempty single, Text.absentNames_line _ _ single]
      by_cases resolved : (Text.expand rule.map body).missing = []
      · rw [List.map_singleton, outcome_cons_of_resolved lenient _ resolved, resolved]
        simp [outcome, textOutcome]
      · have noLater : ∀ item ∈ ([] : List (Nat × Text)), lineFeeds < item.1 := by simp
        have whole := textOutcome_of_missing rule body resolved noLater
        rw [List.append_nil] at whole
        rw [List.map_singleton, outcome_cons_of_missing lenient _ resolved, whole]
  | line body rest single ih =>
      have atLine : (Text.expand rule.map (body ++ ['\n'])).missing =
          (Text.expand rule.map body).missing := by
        rw [Text.expand_append_line, Text.expand_nil, List.append_nil]
      have after : ∀ item ∈ Piece.absentNames rule.map (lineFeeds + 1) (Text.pieces rest),
          lineFeeds + 1 ≤ item.1 := fun item member =>
        Piece.le_of_mem_absentNames rule.map member
      rw [Text.lines_append single, List.map_cons, Text.absentNames_append _ _ single]
      by_cases resolved : (Text.expand rule.map body).missing = []
      · rw [outcome_cons_of_resolved lenient _ (atLine.trans resolved), ih (lineFeeds + 1),
          resolved, List.map_nil, List.nil_append, textOutcome_append lineFeeds single rest after]
      · have absent : (Text.expand rule.map (body ++ ['\n'])).missing ≠ [] := by
          rwa [atLine]
        rw [outcome_cons_of_missing lenient _ absent, atLine,
          textOutcome_of_missing rule _ resolved after]

end SubstitutionRule

namespace Substitution

/-- Reads of whatever sizes give an output in order, and once it is delivered one
ending. -/
def Delivers (rule : SubstitutionRule) (stream : Stream) (output : List UInt8)
    (ending : Option Fault) : Prop :=
  ∀ sizes, ∃ remaining,
    (reads rule sizes (start stream)).1.flatMap delivered ++ remaining = output ∧
    ∀ size, 0 < size →
      ((reads rule sizes (start stream)).2.read rule size).1 =
        if remaining = [] then atEnd ending else .ok (remaining.take size)

theorem delivers_outcome (rule : SubstitutionRule) (stream : Stream) :
    Delivers rule stream
      (rule.outcome stream.transcript.failure 1 stream.transcript.lines).1
      (rule.outcome stream.transcript.failure 1 stream.transcript.lines).2 := by
  intro sizes
  obtain ⟨bytes, sameEnding⟩ := owed_reads rule sizes (start stream)
  refine ⟨_, bytes, fun size positive => ?_⟩
  rw [read_fst rule positive, sameEnding]
  rfl

/-- A text that is substituted line by line, from reads that cut it anywhere, comes to its
expansion if no name is absent.  Otherwise the lines before the first absent name come to
their expansion, and then the absent names of its line are reported, and no others. -/
theorem delivers_expansion (map : VariableMap) (origin text : Text)
    {chunks : List (List UInt8)} (nonempty : ∀ chunk ∈ chunks, chunk ≠ [])
    (whole : chunks.flatten = Utf8.encode text) :
    (text.absentNames map).map Prod.snd = (text.expand map).missing ∧
    ((text.expand map).missing = [] →
      Delivers ⟨map, false, origin⟩ (.ofChunks chunks)
        (Utf8.encode (text.expand map).text) none) ∧
    ∀ lineFeeds name later, text.absentNames map = (lineFeeds, name) :: later →
      Delivers ⟨map, false, origin⟩ (.ofChunks chunks)
        (Utf8.encode (Text.expand map (text.lines.take lineFeeds).flatten).text)
        (some (.undefinedReference none (Fault.lineOrigin origin (lineFeeds + 1))
          (((text.absentNames map).filter fun item => item.1 = lineFeeds).map Prod.snd))) := by
  have names := text.map_snd_absentNames map
  have transcript : (Stream.ofChunks chunks).transcript =
      ⟨text.lines.map Utf8.encode, none⟩ := by
    rw [Stream.transcript_chunks nonempty, whole, Utf8.cutAfter_encode]
  have delivers := delivers_outcome ⟨map, false, origin⟩ (.ofChunks chunks)
  have lenient : (SubstitutionRule.mk map false origin).strict = false := rfl
  have outcome := SubstitutionRule.outcome_lines lenient 0 text
  rw [transcript] at delivers
  dsimp only at delivers
  rw [outcome] at delivers
  refine ⟨names, fun resolved => ?_, fun lineFeeds name later absent => ?_⟩
  · have none : text.absentNames map = [] := by
      rw [resolved] at names
      exact List.map_eq_nil_iff.mp names
    unfold Text.absentNames at none
    rw [none] at delivers
    exact delivers
  · rw [absent]
    unfold Text.absentNames at absent
    rw [absent] at delivers
    exact delivers

/-- A stream that is read byte by byte, with a reference that no line closes and one that
nothing defines. -/
theorem delivers_expansion_bytewise :
    let map : VariableMap := .ofVariables [⟨"A".toList, "\"x\"".toList⟩]
    let text : Text := "é=$A\n$\x7bB\n$C $\x7bA\x7d $D\n".toList
    let chunks := (Utf8.encode text).map fun byte => [byte]
    (∀ chunk ∈ chunks, chunk ≠ []) ∧ chunks.flatten = Utf8.encode text ∧
      text.absentNames map = [(2, "C".toList), (2, "D".toList)] ∧
      Delivers ⟨map, false, "page".toList⟩ (.ofChunks chunks)
        (Utf8.encode "é=x\n$\x7bB\n".toList)
        (some (.undefinedReference none "page line 3".toList ["C".toList, "D".toList])) := by
  intro map text chunks
  have nonempty : ∀ chunk ∈ chunks, chunk ≠ [] := by decide
  have whole : chunks.flatten = Utf8.encode text := by decide
  have absent : text.absentNames map = [(2, "C".toList), (2, "D".toList)] := by decide +kernel
  have output : Utf8.encode (Text.expand map (text.lines.take 2).flatten).text =
      Utf8.encode "é=x\n$\x7bB\n".toList := by decide +kernel
  have delivers := (delivers_expansion map "page".toList text nonempty whole).2.2 _ _ _ absent
  rw [output, absent] at delivers
  exact ⟨nonempty, whole, absent, delivers⟩

end Substitution

end Dotenv
