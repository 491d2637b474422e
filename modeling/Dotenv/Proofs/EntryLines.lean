import Dotenv.Proofs.LayoutRoundTrip
import Dotenv.Proofs.MergedMap

/-!
# One line for each entry

No name in a merged map has an equals sign in it, and neither names nor values have line
feeds.  A map that is written out has therefore as many lines as entries, and an entry of
the process environment falls apart at its first equals sign.
-/

namespace Dotenv

namespace Text

/-- The text before a character where it occurs first, and the text after it. -/
def cutAt? (mark : Char) : Text → Option (Text × Text)
  | [] => none
  | first :: rest =>
    if first = mark then
      some ([], rest)
    else
      (cutAt? mark rest).map fun parts => (first :: parts.1, parts.2)

theorem cutAt?_append {mark : Char} {before : Text} (absent : mark ∉ before) (after : Text) :
    cutAt? mark (before ++ mark :: after) = some (before, after) := by
  induction before with
  | nil => simp [cutAt?]
  | cons first before ih =>
      rw [List.mem_cons, not_or] at absent
      rw [List.cons_append, cutAt?, if_neg (Ne.symm absent.1), ih absent.2]
      rfl

end Text

namespace Layout

theorem line_dotenv (entry : Variable) :
    dotenv.line entry = entry.name ++ '=' :: (entry.value ++ ['\n']) := by
  rw [line, List.append_assoc, List.append_assoc]
  rfl

theorem line_shellExport (entry : Variable) :
    shellExport.line entry =
      "export ".toList ++ (entry.name ++ '=' :: (entry.value ++ ['\n'])) := by
  rw [line, List.append_assoc, List.append_assoc, List.append_assoc]
  rfl

end Layout

namespace VariableMap

variable {map : VariableMap}

theorem IsSingleLine.areSingleLine (single : map.IsSingleLine) :
    Layout.AreSingleLine map.toVariables := by
  intro entry member
  exact single _ _ (mem_toVariables_iff.mp member)

theorem IsSingleLine.lines_renderMap (single : map.IsSingleLine) {layout : Layout}
    (plain : layout.IsPlain) :
    (layout.renderMap map).lines = map.toVariables.map layout.line :=
  Layout.lines_render plain single.areSingleLine.lineFeed_not_mem

theorem IsSingleLine.cutAt?_environmentStrings (single : map.IsSingleLine) :
    map.environmentStrings.map (Text.cutAt? '=') = map.programEnvironment.map some := by
  rw [environmentStrings, List.map_map]
  apply List.map_congr_left
  intro entry member
  obtain ⟨⟨name, value⟩, stored, equal⟩ := List.mem_map.mp member
  have valid := (single name value (SortedMap.get?_eq_some_iff.mpr stored)).1
  have absent : '=' ∉ name := Name.not_mem_of_isValid valid rfl
  rw [← equal]
  exact Text.cutAt?_append absent _

/-- In a map that merges leave behind no entry passes for two: names are names, values are
without line feeds, a written map has one line for each entry in name order, and the
strings of the process environment are cut into name and value at their first equals
sign. -/
theorem Reached.entries_stay_apart {settings : Settings} (reached : Reached settings map) :
    (∀ name value, map.get? name = some value →
      Name.isValid name = true ∧ '\n' ∉ value) ∧
    (Layout.dotenv.renderMap map).lines =
      map.toVariables.map (fun entry => entry.name ++ '=' :: (entry.value ++ ['\n'])) ∧
    (Layout.shellExport.renderMap map).lines =
      map.toVariables.map (fun entry =>
        "export ".toList ++ (entry.name ++ '=' :: (entry.value ++ ['\n']))) ∧
    map.environmentStrings.map (Text.cutAt? '=') = map.programEnvironment.map some := by
  have single := reached.isSingleLine
  refine ⟨single, ?_, ?_, single.cutAt?_environmentStrings⟩
  · rw [single.lines_renderMap Layout.isPlain_dotenv]
    exact List.map_congr_left fun entry _ => Layout.line_dotenv entry
  · rw [single.lines_renderMap Layout.isPlain_shellExport]
    exact List.map_congr_left fun entry _ => Layout.line_shellExport entry

/-- Values with equals signs, the text of another definition and a backslash at the end. -/
theorem entries_stay_apart_after_fault :
    let merged := addSource ⟨true, false⟩ .empty .empty
      (.text [] "B=\"\\n=A=1\"\r\n\nA=$B\\\r\nexport B=$A;\nC=$D\n".toList)
    Reached ⟨true, false⟩ merged.map ∧ merged.fault.isSome = true ∧
      (Layout.shellExport.renderMap merged.map).lines =
        ["export A=\\n=A=1\\\n".toList, "export B=\\n=A=1\\;\n".toList] ∧
      merged.map.environmentStrings.map (Text.cutAt? '=') =
        [some ("A".toList, "\\n=A=1\\".toList), some ("B".toList, "\\n=A=1\\;".toList)] := by
  intro merged
  have reached : Reached ⟨true, false⟩ merged.map := .addSource .empty .empty _
  obtain ⟨-, -, shell, cut⟩ := reached.entries_stay_apart
  refine ⟨reached, by decide +kernel, shell.trans ?_, cut.trans ?_⟩
  · decide +kernel
  · decide +kernel

end VariableMap

end Dotenv
