import Dotenv.Proofs.MergeSteps

/-!
# Texts in parts

A text may be cut wherever a line ends and its parts merged as sources of their own.  The
lines of the parts are the lines of the text, so the parts define what the text does, and a
definition sees the same ones before it either way.
-/

namespace Dotenv

namespace Text

section Parts

variable {first : Text} (whole : first = [] ∨ first.getLast? = some '\n') (second : Text)

include whole

theorem lines_append_of_whole :
    lines (first ++ second) = lines first ++ lines second := by
  apply cutAfter_append
  intro last member
  rcases whole with empty | ends
  · rw [empty] at member
    cases member
  · rw [ends] at member
    cases member
    rfl

theorem contentLines_append_of_whole :
    contentLines (first ++ second) = contentLines first ++ contentLines second := by
  rw [contentLines, lines_append_of_whole whole, List.map_append]
  rfl

theorem isWellFormed_append_iff (allowBlank : Bool) :
    IsWellFormed allowBlank (first ++ second) ↔
      first.IsWellFormed allowBlank ∧ second.IsWellFormed allowBlank := by
  rw [IsWellFormed, contentLines_append_of_whole whole, List.forall_mem_append]
  rfl

theorem definitions_append (allowBlank : Bool) :
    definitions allowBlank (first ++ second) =
      first.definitions allowBlank ++ second.definitions allowBlank := by
  rw [definitions, contentLines_append_of_whole whole, List.filterMap_append]
  rfl

end Parts

end Text

/-- The parts of a text have the definitions of the text, in its order. -/
theorem Source.allDefinitions_parts_eq_ok_iff {tree : FileTree} {allowBlank : Bool}
    {first : Text} (whole : first = [] ∨ first.getLast? = some '\n') (second : Text)
    (firstOrigin secondOrigin origin : Text) {listed : List Variable} :
    allDefinitions tree allowBlank [.text firstOrigin first, .text secondOrigin second] =
        .ok listed ↔
      allDefinitions tree allowBlank [.text origin (first ++ second)] = .ok listed := by
  simp [allDefinitions_cons_eq_ok_iff, definitions_text_eq_ok_iff,
    Text.isWellFormed_append_iff whole, Text.definitions_append whole, and_assoc]

namespace VariableMap

variable {settings : Settings} {tree : FileTree} {map after : VariableMap} {first : Text}

theorem addSources_parts_eq_ok_iff (whole : first = [] ∨ first.getLast? = some '\n')
    (second firstOrigin secondOrigin origin : Text) :
    map.addSources settings tree [.text firstOrigin first, .text secondOrigin second] =
        ⟨after, none⟩ ↔
      map.addSources settings tree [.text origin (first ++ second)] = ⟨after, none⟩ := by
  simp only [addSources_eq_ok_iff,
    Source.allDefinitions_parts_eq_ok_iff whole second firstOrigin secondOrigin origin]

/-- Two texts of which the first ends where a line does can be merged as one, among any other
sources: the merge of the parts succeeds with a map exactly when the merge of the whole text
does. -/
theorem ofSources_parts (before : List Source)
    (whole : first = [] ∨ first.getLast? = some '\n')
    (second firstOrigin secondOrigin origin : Text) (rest : List Source) :
    ofSources settings tree
        (before ++ [.text firstOrigin first, .text secondOrigin second] ++ rest) = .ok map ↔
      ofSources settings tree (before ++ [.text origin (first ++ second)] ++ rest) =
        .ok map := by
  simp only [ofSources_eq_ok_iff, addSources_append_eq_ok_iff,
    addSources_parts_eq_ok_iff whole second firstOrigin secondOrigin origin]

/-- A cut behind a comment that ends with a carriage return and a line feed; the second part
refers to the first one and ends inside of a line. -/
theorem ofSources_parts_crlf :
    let before : List Source := [.text "base".toList "A=0\n".toList]
    let first : Text := "A=$A\\\r\nB=\"$A \"\r\n# $C\r\n".toList
    let second : Text := "C=$B$A\n\nA=".toList
    let rest : List Source := [.text "rest".toList "D=$C".toList]
    let map : VariableMap := .ofVariables
      [⟨"A".toList, []⟩, ⟨"B".toList, "\"0\\ \"".toList⟩, ⟨"C".toList, "0\\ 0\\".toList⟩,
        ⟨"D".toList, "0\\ 0\\".toList⟩]
    (first = [] ∨ first.getLast? = some '\n') ∧
      ofSources ⟨true, false⟩ .empty (before ++ [.text "whole".toList (first ++ second)] ++ rest) =
        .ok map ∧
      ofSources ⟨true, false⟩ .empty
        (before ++ [.text "first".toList first, .text "second".toList second] ++ rest) =
          .ok map := by
  intro before first second rest map
  have whole : first = [] ∨ first.getLast? = some '\n' := .inr (by decide)
  have merged : ofSources ⟨true, false⟩ .empty
      (before ++ [.text "whole".toList (first ++ second)] ++ rest) = .ok map := by
    decide +kernel
  exact ⟨whole, merged, (ofSources_parts before whole second _ _ _ rest).mpr merged⟩

end VariableMap

end Dotenv
