import Dotenv.Proofs.CopiedOutput
import Dotenv.Proofs.StrictReferences
import Dotenv.Proofs.TextSubstitution

/-!
# Stray dollar signs in a stream

Neither an escape nor a reference reaches over the end of a line.  So the first stray
dollar sign of a text is the first one on its line, and substitution line by line stops at
that line and reports the place there.
-/

namespace Dotenv

namespace Escape

/-- A line feed is no backslash: what stands before it escapes nothing after it. -/
theorem followsReversed_append_lineFeed (reversed earlier : Text) :
    followsReversed (reversed ++ '\n' :: earlier) = followsReversed reversed := by
  induction reversed with
  | nil => exact followsReversed_cons_of_ne (by decide) earlier
  | cons first rest ih =>
      by_cases backslash : first = '\\'
      · rw [backslash, List.cons_append, followsReversed_cons_backslash,
          followsReversed_cons_backslash, ih]
      · rw [List.cons_append, followsReversed_cons_of_ne backslash,
          followsReversed_cons_of_ne backslash]

theorem strayFrom_append_lineFeed (reversed earlier text : Text) :
    strayFrom (reversed ++ '\n' :: earlier) text =
      (strayFrom reversed text).map (· + (earlier.length + 1)) := by
  induction text generalizing reversed with
  | nil => rfl
  | cons first rest ih =>
      rw [strayFrom, strayFrom, followsReversed_append_lineFeed]
      split
      · simp
      · exact ih (first :: reversed)

/-- The search goes through a line with its line feed and then on from there. -/
theorem strayFrom_append_line (reversed body rest : Text) :
    strayFrom reversed (body ++ '\n' :: rest) =
      (strayFrom reversed (body ++ ['\n'])).or
        (strayFrom ('\n' :: (body.reverse ++ reversed)) rest) := by
  induction body generalizing reversed with
  | nil =>
      have nothing : strayFrom reversed ['\n'] = none := strayFrom_of_no_dollar (by decide) _
      rw [List.nil_append, List.nil_append, strayFrom_cons_of_ne (by decide), nothing]
      rfl
  | cons first body ih =>
      have begins (more : Text) : Reference.begins (first :: (body ++ '\n' :: more)) =
          Reference.begins (first :: body) :=
        Reference.begins_append_barrier Reference.isBarrier_lineFeed
          (List.cons_ne_nil first body) more
      rw [List.cons_append, List.cons_append, strayFrom, strayFrom, begins, begins]
      split
      · rfl
      · rw [ih]
        simp

/-- The first stray dollar sign stands on the first line or after it. -/
theorem stray?_append_line (body rest : Text) :
    stray? (body ++ '\n' :: rest) =
      (stray? (body ++ ['\n'])).or
        ((stray? rest).map (· + (body ++ ['\n']).length)) := by
  have later := strayFrom_append_lineFeed [] body.reverse rest
  rw [List.nil_append, List.length_reverse] at later
  rw [stray?, strayFrom_append_line, List.append_nil, later, List.length_append,
    List.length_singleton]
  rfl

theorem lt_of_strayFrom {reversed text : Text} {before : Nat}
    (stray : strayFrom reversed text = some before) :
    before < reversed.length + text.length := by
  induction text generalizing reversed with
  | nil => cases stray
  | cons first rest ih =>
      rw [List.length_cons]
      unfold strayFrom at stray
      split at stray
      · cases stray
        omega
      · have bound := ih stray
        rw [List.length_cons] at bound
        omega

end Escape

theorem Text.expand_line_append (map : VariableMap) (body rest : Text) :
    expand map (body ++ '\n' :: rest) =
      ⟨(expand map (body ++ ['\n'])).text ++ (expand map rest).text,
        (expand map (body ++ ['\n'])).missing ++ (expand map rest).missing⟩ := by
  rw [expand_append_line, expand_append_line, expand_nil]
  simp

namespace SubstitutionRule

variable {rule : SubstitutionRule}

/-- A line that refers to nothing absent comes to its expansion, unless a dollar sign is
stray on it. -/
theorem substituteLine_of_defined (strict : rule.strict = true) (number : Nat) {line : Text}
    (defined : (line.expand rule.map).missing = []) :
    rule.substituteLine number (Utf8.encode line) =
      match Escape.stray? line with
      | none => .ok (Utf8.encode (line.expand rule.map).text)
      | some before => .error (.invalidReference (some number) (before + 1)) := by
  rw [substituteLine, Utf8.decode_encode]
  cases stray : Escape.stray? line with
  | none =>
      simp only [Text.resolve_of_isClean fun _ => stray, if_pos defined]
  | some before =>
      simp only [strict, Text.resolve_of_stray stray]
      rfl

/-- A line that comes to its expansion joins the expansion of what comes before a fault on
later lines, or of all of them. -/
theorem outcome_cons_of_expanded {number : Nat} {body expanded : Text}
    {lines : List (List UInt8)} {fault : Option Fault}
    (own : rule.substituteLine number (Utf8.encode (body ++ ['\n'])) =
      .ok (Utf8.encode (Text.expand rule.map (body ++ ['\n'])).text))
    (later : rule.outcome none (number + 1) lines =
      (Utf8.encode (Text.expand rule.map expanded).text, fault)) :
    rule.outcome none number (Utf8.encode (body ++ ['\n']) :: lines) =
      (Utf8.encode (Text.expand rule.map (body ++ '\n' :: expanded)).text, fault) := by
  rw [outcome_cons_of_ok own, later, Text.expand_line_append rule.map body expanded,
    Utf8.encode_append]

/-- What a text comes to line by line where references have to be strict and none names
anything absent: its expansion, or that of the lines before the one with the first stray
dollar sign and then the fault of that line. -/
theorem outcome_strict (strict : rule.strict = true) (number : Nat) {text : Text}
    (defined : (text.expand rule.map).missing = []) :
    match Escape.stray? text with
    | none =>
      rule.outcome none number (text.lines.map Utf8.encode) =
        (Utf8.encode (text.expand rule.map).text, none)
    | some place =>
      ∃ before line after within, text.lines = before ++ line :: after ∧
        Escape.stray? line = some within ∧ place = before.flatten.length + within ∧
        rule.outcome none number (text.lines.map Utf8.encode) =
          (Utf8.encode (Text.expand rule.map before.flatten).text,
            some (.invalidReference (some (number + before.length)) (within + 1))) := by
  induction text using Text.induction_on_lines generalizing number with
  | empty =>
      rw [Text.expand_nil]
      rfl
  | last body nonempty single =>
      have own := substituteLine_of_defined strict number defined
      rw [Text.lines_of_no_lineFeed nonempty single, List.map_singleton]
      cases stray : Escape.stray? body with
      | none =>
          simp only [stray] at own
          dsimp only
          rw [outcome_cons_of_ok own, outcome, List.append_nil]
          rfl
      | some within =>
          simp only [stray] at own
          refine ⟨[], body, [], within, rfl, stray, (Nat.zero_add within).symm, ?_⟩
          rw [outcome_cons_of_error own, List.flatten_nil, Text.expand_nil]
          rfl
  | line body rest single ih =>
      rw [Text.expand_line_append, List.append_eq_nil_iff] at defined
      have own := substituteLine_of_defined strict number defined.1
      have later := ih (number + 1) defined.2
      rw [Text.lines_append single, List.map_cons, Escape.stray?_append_line]
      cases stray : Escape.stray? (body ++ ['\n']) with
      | some within =>
          simp only [stray] at own
          refine ⟨[], body ++ ['\n'], Text.lines rest, within, rfl, stray,
            (Nat.zero_add within).symm, ?_⟩
          rw [outcome_cons_of_error own, List.flatten_nil, Text.expand_nil]
          rfl
      | none =>
          simp only [stray] at own
          cases restStray : Escape.stray? rest with
          | none =>
              simp only [restStray] at later
              dsimp only [Option.map_none, Option.none_or]
              rw [outcome_cons_of_expanded own later, Text.expand_line_append]
          | some place =>
              simp only [restStray] at later
              obtain ⟨before, line, after, within, split, lineStray, position, result⟩ := later
              have further : place + (body ++ ['\n']).length =
                  ((body ++ ['\n']) :: before).flatten.length + within := by
                simp only [position, List.flatten_cons, List.length_append]
                omega
              refine ⟨(body ++ ['\n']) :: before, line, after, within, ?_, lineStray,
                further, ?_⟩
              · rw [split, List.cons_append]
              · have joined : ((body ++ ['\n']) :: before).flatten =
                    body ++ '\n' :: before.flatten := by simp
                have lineNumber : number + ((body ++ ['\n']) :: before).length =
                    number + 1 + before.length := by
                  rw [List.length_cons]
                  omega
                rw [outcome_cons_of_expanded own result, joined, lineNumber]

end SubstitutionRule

namespace Substitution

/-- A text comes as bytes, from reads that cut it anywhere and may have to be tried again, and
refers to nothing absent.  Strict substitution of it succeeds exactly when no dollar sign in it
is stray, and then comes to the expansion of the text.  Otherwise the lines before the one
with the first stray dollar sign come to their expansion, and then this line is reported with
the column where the sign stands on it. -/
theorem strict_positions (map : VariableMap) (origin text : Text) {stream : Stream}
    (own : stream.signals = (Utf8.encode text).map .byte)
    (defined : ∀ name ∈ text.referencedNames, map.contains name = true) :
    ((∃ count, (stream.substituteInto ⟨map, true, origin⟩ .unlimited).outcome = .ok count) ↔
      text.checkReferences = .ok ()) ∧
    (text.checkReferences = .ok () →
      Delivers ⟨map, true, origin⟩ stream (Utf8.encode (text.expand map).text) none) ∧
    ∀ column, text.checkReferences = .error (.invalidReference none column) →
      ∃ before line after within,
        text.lines = before ++ line :: after ∧ 1 ≤ within ∧ within ≤ line.length ∧
        1 ≤ column ∧ column - 1 = before.flatten.length + (within - 1) ∧
        Delivers ⟨map, true, origin⟩ stream
          (Utf8.encode (Text.expand map before.flatten).text)
          (some (.invalidReference (some (before.length + 1)) within)) := by
  have resolved := Text.expand_missing_eq_nil_iff.mpr defined
  have transcript : stream.transcript = ⟨text.lines.map Utf8.encode, none⟩ := by
    rw [Stream.transcript_of_bytes own, Utf8.cutAfter_encode]
  have delivers := delivers_outcome ⟨map, true, origin⟩ stream
  have final : Sink.unlimited.IsFinal := trivial
  have copied := Stream.substituteInto_eq ⟨map, true, origin⟩ final stream
  have strict : (SubstitutionRule.mk map true origin).strict = true := rfl
  have outcome := SubstitutionRule.outcome_strict strict 1 resolved
  rw [transcript] at delivers copied
  cases stray : Escape.stray? text with
  | none =>
      simp only [stray] at outcome
      have clean : text.checkReferences = .ok () := by rw [Text.checkReferences, stray]
      rw [outcome] at delivers copied
      refine ⟨⟨fun _ => clean, fun _ => ⟨_, by rw [copied]; rfl⟩⟩, fun _ => delivers, ?_⟩
      intro column failed
      rw [clean] at failed
      cases failed
  | some place =>
      simp only [stray] at outcome
      obtain ⟨before, line, after, within, split, lineStray, position, result⟩ := outcome
      have failing : text.checkReferences = .error (.invalidReference none (place + 1)) := by
        rw [Text.checkReferences, stray]
      rw [result] at delivers copied
      refine ⟨⟨?_, fun clean => ?_⟩, fun clean => ?_, ?_⟩
      · rintro ⟨count, succeeded⟩
        rw [copied] at succeeded
        cases succeeded
      · rw [failing] at clean
        cases clean
      · rw [failing] at clean
        cases clean
      · intro column failed
        rw [failing] at failed
        cases failed
        have bound := Escape.lt_of_strayFrom lineStray
        rw [List.length_nil, Nat.zero_add] at bound
        refine ⟨before, line, after, within + 1, split, by omega, bound, by omega, by omega, ?_⟩
        rw [Nat.add_comm before.length 1]
        exact delivers

/-- Dollar signs behind an odd and an even number of backslashes, on three lines of which the
second and the third have a stray one; the bytes are cut inside of a character. -/
theorem strict_positions_escaped :
    let map : VariableMap := .ofVariables [⟨"A".toList, "1".toList⟩]
    let first : Text := "é=$A\\$\n".toList
    let second : Text := "\\\\$A é$ $A\n".toList
    let text : Text := first ++ second ++ "$\n".toList
    let stream : Stream :=
      [.data ((Utf8.encode text).take 1), .failure ⟨.interrupted, "again".toList⟩,
        .data ((Utf8.encode text).drop 1)]
    stream.signals = (Utf8.encode text).map .byte ∧
      (∀ name ∈ text.referencedNames, map.contains name = true) ∧
      text.checkReferences = .error (.invalidReference none 14) ∧
      Delivers ⟨map, true, "page".toList⟩ stream (Utf8.encode "é=1\\$\n".toList)
        (some (.invalidReference (some 2) 7)) := by
  intro map first second text stream
  have own : stream.signals = (Utf8.encode text).map .byte := by decide +kernel
  have defined : ∀ name ∈ text.referencedNames, map.contains name = true := by decide +kernel
  have failing : text.checkReferences = .error (.invalidReference none 14) := by
    decide +kernel
  have lines : text.lines = [first, second, "$\n".toList] := by decide +kernel
  have output : (Text.expand map first).text = "é=1\\$\n".toList := by decide +kernel
  obtain ⟨before, line, after, within, split, -, high, -, place, delivers⟩ :=
    (strict_positions map "page".toList text own defined).2.2 14 failing
  rw [lines] at split
  refine ⟨own, defined, failing, ?_⟩
  rcases before with _ | ⟨own, _ | ⟨next, others⟩⟩
  · cases split
    have length : first.length = 7 := by decide
    rw [List.flatten_nil, List.length_nil] at place
    omega
  · cases split
    have length : first.length = 7 := by decide
    rw [List.flatten_singleton] at place delivers
    have column : within = 7 := by omega
    rw [output, column] at delivers
    exact delivers
  · simp only [List.cons_append, List.cons.injEq] at split
    have length : (first ++ second).length = 18 := by decide
    rw [List.flatten_cons, List.flatten_cons, ← List.append_assoc, List.length_append,
      ← split.1, ← split.2.1] at place
    omega

end Substitution

end Dotenv
