import Dotenv.Proofs.Pieces

/-!
# Expansion of a segmented text

There is one way only to read a text as literal text and references in turn, where
no literal text hides a reference and no bare name is cut short.  Expansion
replaces the references of that reading and keeps the literal text between them.
-/

namespace Dotenv

/-- A reading of a text: literal text, then references, each with the literal text
after it. -/
structure Segmentation where
  literal : Text
  tokens : List (Reference × Text)
  deriving DecidableEq, Repr

namespace Segmentation

def tokensText (tokens : List (Reference × Text)) : Text :=
  tokens.flatMap fun token => token.1.text ++ token.2

def text (segmentation : Segmentation) : Text :=
  segmentation.literal ++ tokensText segmentation.tokens

/-- No dollar sign in a literal text begins a reference in the whole that the text
makes up with what comes after it. -/
def IsPlainBefore (literal after : Text) : Prop :=
  ∀ before inside, literal = before ++ '$' :: inside →
    ∀ reference : Reference, ∀ rest,
      '$' :: (inside ++ after) = reference.text ++ rest → ¬ reference.StandsBefore rest

def AreProper : List (Reference × Text) → Prop
  | [] => True
  | (reference, literal) :: later =>
    reference.StandsBefore (literal ++ tokensText later) ∧
      IsPlainBefore literal (tokensText later) ∧ AreProper later

def IsProper (segmentation : Segmentation) : Prop :=
  IsPlainBefore segmentation.literal (tokensText segmentation.tokens) ∧
    AreProper segmentation.tokens

theorem isPlainBefore_nil (after : Text) : IsPlainBefore [] after := by
  intro before inside split
  simp at split

theorem isPlainBefore_cons_iff {first : Char} {literal after : Text} :
    IsPlainBefore (first :: literal) after ↔
      Reference.next? (first :: (literal ++ after)) = none ∧ IsPlainBefore literal after := by
  constructor
  · intro plain
    constructor
    · cases found : Reference.next? (first :: (literal ++ after)) with
      | none => rfl
      | some split =>
          obtain ⟨reference, rest⟩ := split
          obtain ⟨equal, stands⟩ := Reference.next?_eq_some_iff.mp found
          by_cases dollar : first = '$'
          · subst dollar
            exact absurd stands (plain [] literal rfl reference rest equal)
          · rw [Reference.next?_of_ne_dollar dollar] at found
            cases found
    · intro before inside split
      exact plain (first :: before) inside (by rw [split, List.cons_append])
  · rintro ⟨absent, plain⟩ before inside split reference rest equal stands
    cases before with
    | nil =>
        cases split
        have found := Reference.next?_eq_some_iff.mpr ⟨equal, stands⟩
        rw [absent] at found
        cases found
    | cons character before =>
        exact plain before inside (List.cons.inj split).2 reference rest equal stands

theorem pieces_append_of_isPlainBefore {literal after : Text}
    (plain : IsPlainBefore literal after) :
    Text.pieces (literal ++ after) = literal.map .literal ++ after.pieces := by
  induction literal with
  | nil => rfl
  | cons first literal ih =>
      obtain ⟨absent, later⟩ := isPlainBefore_cons_iff.mp plain
      rw [List.cons_append, Text.pieces_of_not_next? absent, ih later, List.map_cons,
        List.cons_append]

/-- The pieces that a segmentation stands for. -/
def pieces (segmentation : Segmentation) : List Piece :=
  segmentation.literal.map .literal ++
    segmentation.tokens.flatMap fun token => .token token.1 :: token.2.map .literal

theorem pieces_tokensText {tokens : List (Reference × Text)} (proper : AreProper tokens) :
    Text.pieces (tokensText tokens) =
      tokens.flatMap fun token => .token token.1 :: token.2.map .literal := by
  induction tokens with
  | nil => exact Text.pieces_nil
  | cons token later ih =>
      obtain ⟨reference, literal⟩ := token
      obtain ⟨stands, plain, others⟩ := proper
      have found := Reference.next?_text_append stands
      have joined : tokensText ((reference, literal) :: later) =
          reference.text ++ (literal ++ tokensText later) := by
        simp [tokensText]
      rw [joined, Text.pieces_of_next? found, pieces_append_of_isPlainBefore plain,
        ih others, List.flatMap_cons, List.cons_append]

theorem pieces_text {segmentation : Segmentation} (proper : segmentation.IsProper) :
    Text.pieces segmentation.text = segmentation.pieces := by
  rw [text, pieces_append_of_isPlainBefore proper.1, pieces_tokensText proper.2, pieces]

/-- The segmentation that collects pieces: characters join the literal text before the
next reference. -/
def ofPieces : List Piece → Segmentation
  | [] => ⟨[], []⟩
  | .literal character :: rest =>
    let later := ofPieces rest
    ⟨character :: later.literal, later.tokens⟩
  | .token reference :: rest =>
    let later := ofPieces rest
    ⟨[], (reference, later.literal) :: later.tokens⟩

theorem ofPieces_literal_append (literal : Text) (rest : List Piece) :
    ofPieces (literal.map .literal ++ rest) =
      ⟨literal ++ (ofPieces rest).literal, (ofPieces rest).tokens⟩ := by
  induction literal with
  | nil => rfl
  | cons first literal ih => simp [ofPieces, ih]

theorem ofPieces_pieces (segmentation : Segmentation) :
    ofPieces segmentation.pieces = segmentation := by
  obtain ⟨literal, tokens⟩ := segmentation
  have collected : ofPieces
      (tokens.flatMap fun token => .token token.1 :: token.2.map .literal) = ⟨[], tokens⟩ := by
    induction tokens with
    | nil => rfl
    | cons token later ih =>
        rw [List.flatMap_cons, List.cons_append, ofPieces, ofPieces_literal_append, ih]
        simp
  rw [pieces, ofPieces_literal_append, collected, List.append_nil]

theorem text_ofPieces (pieces : List Piece) :
    (ofPieces pieces).text = pieces.flatMap Piece.text := by
  induction pieces with
  | nil => rfl
  | cons piece rest ih =>
      rw [List.flatMap_cons, ← ih]
      cases piece with
      | literal character => rfl
      | token reference => simp [ofPieces, text, tokensText, Piece.text]

theorem text_ofPieces_pieces (text : Text) : (ofPieces text.pieces).text = text := by
  rw [text_ofPieces, Text.flatMap_text_pieces]

theorem isProper_ofPieces_pieces (text : Text) : (ofPieces text.pieces).IsProper := by
  fun_induction Text.pieces text with
  | case1 => exact ⟨isPlainBefore_nil _, trivial⟩
  | case2 first rest reference after found ih =>
      have whole := text_ofPieces_pieces after
      rw [Segmentation.text] at whole
      refine ⟨isPlainBefore_nil _, ?_, ih⟩
      rw [whole]
      exact Reference.standsBefore_of_next? found
  | case3 first rest absent ih =>
      have whole := text_ofPieces_pieces rest
      rw [Segmentation.text] at whole
      refine ⟨isPlainBefore_cons_iff.mpr ⟨?_, ih.1⟩, ih.2⟩
      change Reference.next? (first :: ((ofPieces (Text.pieces rest)).literal ++
        tokensText (ofPieces (Text.pieces rest)).tokens)) = none
      rw [whole]
      exact absent

/-- A segmentation of a text is proper exactly when it collects the pieces of the text. -/
theorem isProper_iff {segmentation : Segmentation} {text : Text} :
    segmentation.text = text ∧ segmentation.IsProper ↔
      segmentation = ofPieces text.pieces := by
  constructor
  · rintro ⟨equal, proper⟩
    rw [← equal, pieces_text proper, ofPieces_pieces]
  · intro equal
    rw [equal]
    exact ⟨text_ofPieces_pieces text, isProper_ofPieces_pieces text⟩

end Segmentation

/-- What takes the place of a reference: what its value has between the quotes that it begins
and ends with, a value without such quotes as it is, or the reference itself where nothing
defines its name. -/
inductive Reference.IsReplacedBy (map : VariableMap) (reference : Reference) : Text → Prop
  | quoted {inner : Text} (bound : map.get? reference.name = some ('"' :: inner ++ ['"'])) :
      IsReplacedBy map reference inner
  | bare {value : Text} (bound : map.get? reference.name = some value)
      (noQuotes : ∀ inner, value ≠ '"' :: inner ++ ['"']) :
      IsReplacedBy map reference value
  | undefined (unbound : map.get? reference.name = none) :
      IsReplacedBy map reference reference.text

theorem Text.unquoted_of_ne {text : Text} (noQuotes : ∀ inner, text ≠ '"' :: inner ++ ['"']) :
    text.unquoted = text := by
  unfold unquoted
  split
  · rename_i rest
    split
    · rename_i closed
      obtain ⟨inner, equal⟩ := List.getLast?_eq_some_iff.mp closed
      exact absurd (congrArg ('"' :: ·) equal) (noQuotes inner)
    · rfl
  · rfl

theorem Reference.isReplacedBy_iff {map : VariableMap} {reference : Reference} {given : Text} :
    reference.IsReplacedBy map given ↔ given = Piece.expanded map (.token reference) := by
  have expanded : Piece.expanded map (.token reference) =
      ((map.get? reference.name).map Text.unquoted).getD reference.text := by
    simp only [Piece.expanded]
    cases map.get? reference.name <;> rfl
  rw [expanded]
  constructor
  · rintro (bound | ⟨bound, noQuotes⟩ | unbound)
    · rw [bound]
      exact (Text.unquoted_quoted given).symm
    · rw [bound]
      exact (Text.unquoted_of_ne noQuotes).symm
    · rw [unbound]
      rfl
  · rintro rfl
    cases found : map.get? reference.name with
    | none => exact .undefined found
    | some value =>
        by_cases quotes : ∃ inner, value = '"' :: inner ++ ['"']
        · obtain ⟨inner, rfl⟩ := quotes
          have stripped : Text.unquoted ('"' :: inner ++ ['"']) = inner :=
            Text.unquoted_quoted inner
          rw [Option.map_some, Option.getD_some, stripped]
          exact .quoted found
        · rw [not_exists] at quotes
          rw [Option.map_some, Option.getD_some, Text.unquoted_of_ne quotes]
          exact .bare found quotes

namespace Segmentation

theorem flatMap_expanded (map : VariableMap) (pieces : List Piece) :
    pieces.flatMap (Piece.expanded map) =
      (ofPieces pieces).literal ++
        (ofPieces pieces).tokens.flatMap fun token =>
          Piece.expanded map (.token token.1) ++ token.2 := by
  induction pieces with
  | nil => rfl
  | cons piece rest ih =>
      rw [List.flatMap_cons, ih]
      cases piece with
      | literal character => rfl
      | token reference => simp [ofPieces]

theorem map_fst_tokens (pieces : List Piece) :
    (ofPieces pieces).tokens.map Prod.fst = pieces.filterMap Piece.reference? := by
  induction pieces with
  | nil => rfl
  | cons piece rest ih =>
      cases piece with
      | literal character =>
          rw [List.filterMap_cons_none rfl]
          exact ih
      | token reference => simpa [ofPieces, Piece.reference?] using ih

/-- Every text has one proper segmentation, and its expansion is that segmentation with
each reference replaced.  The names that are missing are those of its references that
nothing defines. -/
theorem expand_proper (text : Text) :
    ∃ segmentation : Segmentation,
      (∀ other : Segmentation,
        other.text = text ∧ other.IsProper ↔ other = segmentation) ∧
      ∀ map : VariableMap, ∃ replacement : Reference → Text,
        (∀ reference given,
          Reference.IsReplacedBy map reference given ↔ given = replacement reference) ∧
        text.expand map =
          ⟨segmentation.literal ++
              segmentation.tokens.flatMap fun token => replacement token.1 ++ token.2,
            (segmentation.tokens.map fun token => token.1.name).filter fun name =>
              !map.contains name⟩ := by
  refine ⟨ofPieces text.pieces, fun other => isProper_iff, fun map =>
    ⟨fun reference => Piece.expanded map (.token reference),
      fun reference given => Reference.isReplacedBy_iff, ?_⟩⟩
  have expanded := flatMap_expanded map text.pieces
  have names : ((ofPieces text.pieces).tokens.map fun token => token.1.name) =
      text.referencedNames := by
    rw [Text.referencedNames, Text.references, ← map_fst_tokens, List.map_map]
    rfl
  rw [names, ← Text.expand_missing, ← expanded]
  rfl

end Segmentation

end Dotenv
