import Dotenv.Proofs.LayoutRoundTrip

/-!
# Writing back what was read

Definitions that were read from a text can be written and are read again, whatever is
allowed the second time.  One thing gets lost on the way: a carriage return at the end of
a value.  A backslash can escape it there, but written before a line feed it belongs to the
end of the line.
-/

namespace Dotenv

theorem Text.mem_head?_of_mem_head?_withoutReturn {text : Text} {first : Char}
    (member : first ∈ text.withoutReturn.head?) : first ∈ text.head? := by
  obtain ⟨ending, whole⟩ := text.exists_withoutReturn_append
  cases start : text.withoutReturn with
  | nil =>
      rw [start] at member
      cases member
  | cons other rest =>
      rw [start] at member whole
      rw [whole]
      exact member

namespace Value

/-- Only a backslash lets a carriage return stand in a value, and at the end a backslash can
stand without it. -/
theorem isInner_of_append_return {body : Text}
    (inner : isInner true (body ++ ['\r']) = true) : isInner true body = true := by
  fun_induction isInner true body with
  | case1 => rfl
  | case2 => rfl
  | case3 escaped rest ih =>
      simp only [List.cons_append, isInner, Bool.and_eq_true] at inner ⊢
      exact ⟨inner.1, ih inner.2⟩
  | case4 rest ih =>
      simp only [List.cons_append, isInner, Bool.and_eq_true] at inner ⊢
      have begin := Reference.begins_append_barrier Reference.isBarrier_return
        (List.cons_ne_nil '$' rest) []
      exact ⟨begin ▸ inner.1, ih inner.2⟩
  | case5 first rest notLast notEscape notDollar ih =>
      have visible := ne_backslash notLast notEscape
      rw [List.cons_append, isInner.eq_5 _ _ _ (fun equal _ => visible equal)
        (fun _ _ equal _ => visible equal) notDollar, Bool.and_eq_true] at inner
      rw [Bool.and_eq_true]
      exact ⟨inner.1, ih inner.2⟩

theorem isValid_withoutReturn {value : Text} (valid : isValid value = true) :
    isValid value.withoutReturn = true := by
  by_cases returns : value.getLast? = some '\r'
  · obtain ⟨body, equal⟩ := List.getLast?_eq_some_iff.mp returns
    have same : value.withoutReturn = body := by simp [equal, Text.withoutReturn]
    rw [same]
    rcases Bool.or_eq_true_iff.mp valid with inner | quoted
    · rw [equal] at inner
      exact Bool.or_eq_true_iff.mpr (.inl (isInner_of_append_return inner))
    · obtain ⟨inside, whole, -⟩ := exists_of_isQuoted quoted
      rw [whole, List.getLast?_concat] at returns
      exact absurd (Option.some.inj returns) (by decide)
  · rw [Text.withoutReturn_eq_self_iff.mpr returns]
    exact valid

end Value

namespace Layout

/-- The variable without a carriage return at the end of its value. -/
def withoutFinalReturn (entry : Variable) : Variable :=
  ⟨entry.name, entry.value.withoutReturn⟩

theorem withoutFinalReturn_eq_self_iff {entry : Variable} :
    withoutFinalReturn entry = entry ↔ entry.value.getLast? ≠ some '\r' := by
  rw [← Text.withoutReturn_eq_self_iff]
  exact ⟨congrArg Variable.value, congrArg (Variable.mk entry.name)⟩

section Parsed

variable {allowBlank : Bool} {text : Text} {listed : List Variable}
  (read : Definitions.ofText allowBlank text = .ok listed)

include read

theorem readBack_of_ofText {entry : Variable} (member : entry ∈ listed) :
    readBack entry = withoutFinalReturn entry := by
  obtain ⟨-, -, visible⟩ := Definitions.valid_of_mem read member
  have stillVisible : ∀ first ∈ entry.value.withoutReturn.head?, Text.isBlank first = false :=
    fun first start => visible first (Text.mem_head?_of_mem_head?_withoutReturn start)
  rw [readBack, Text.trimBlanks_eq_self stillVisible, withoutFinalReturn]

theorem ofText_render_of_ofText {layout : Layout} (plain : layout.IsPlain) (again : Bool) :
    Definitions.ofText again (layout.render listed) =
      .ok (listed.map withoutFinalReturn) := by
  have lines : AreSingleLine listed := by
    intro entry member
    obtain ⟨validName, validValue, -⟩ := Definitions.valid_of_mem read member
    exact ⟨validName, Value.lineFeed_not_mem validValue⟩
  have defines : ∀ entry ∈ listed, Value.isValid (readBack entry).value = true := by
    intro entry member
    rw [readBack_of_ofText read member]
    exact Value.isValid_withoutReturn (Definitions.valid_of_mem read member).2.1
  have good := (isWellFormed_render_iff plain again lines).mpr defines
  refine Definitions.ofText_eq_ok_iff.mpr ⟨good, ?_⟩
  rw [definitions_render plain again lines defines]
  exact List.map_congr_left fun entry => readBack_of_ofText read

/-- Definitions that were read and are written plainly or for a shell are read again under
either setting, with every value but for a carriage return at its end; so they come back
as they were exactly when no value ends with one. -/
theorem ofText_render_written_back (again : Bool) :
    (Definitions.ofText again (dotenv.render listed) =
        .ok (listed.map withoutFinalReturn) ∧
      Definitions.ofText again (shellExport.render listed) =
        .ok (listed.map withoutFinalReturn)) ∧
    (Definitions.ofText again (dotenv.render listed) = .ok listed ↔
      ∀ entry ∈ listed, entry.value.getLast? ≠ some '\r') ∧
    (Definitions.ofText again (shellExport.render listed) = .ok listed ↔
      ∀ entry ∈ listed, entry.value.getLast? ≠ some '\r') := by
  have plainly := ofText_render_of_ofText read isPlain_dotenv again
  have forShell := ofText_render_of_ofText read isPlain_shellExport again
  have same : listed.map withoutFinalReturn = listed ↔
      ∀ entry ∈ listed, entry.value.getLast? ≠ some '\r' := by
    simp only [← withoutFinalReturn_eq_self_iff]
    have unchanged := List.map_inj_left (f := withoutFinalReturn) (g := id) (l := listed)
    rwa [List.map_id] at unchanged
  refine ⟨⟨plainly, forShell⟩, ?_, ?_⟩
  · rw [plainly, Except.ok.injEq, same]
  · rw [forShell, Except.ok.injEq, same]

end Parsed

/-- Trailing backslashes, escaped quotes and a carriage return inside of a value come
back. -/
theorem ofText_render_written_back_escapes :
    let text : Text := "# note\n\nexport A = C:\\tmp\\\r\nB=\"\\\r \\\"\"\nA=$B\\\r;".toList
    let listed : List Variable := [⟨"A".toList, "C:\\tmp\\".toList⟩,
      ⟨"B".toList, "\"\\\r \\\"\"".toList⟩, ⟨"A".toList, "$B\\\r;".toList⟩]
    Definitions.ofText true text = .ok listed ∧
      Definitions.ofText false (dotenv.render listed) = .ok listed ∧
      Definitions.ofText false (shellExport.render listed) = .ok listed := by
  intro text listed
  have read : Definitions.ofText true text = .ok listed := by decide +kernel
  have noReturn : ∀ entry ∈ listed, entry.value.getLast? ≠ some '\r' := by decide
  obtain ⟨-, plainly, forShell⟩ := ofText_render_written_back read false
  exact ⟨read, plainly.mpr noReturn, forShell.mpr noReturn⟩

/-- An escaped carriage return before the end of a line is read as part of a value, and is
gone after it was written back. -/
theorem written_back_loses_return :
    let listed : List Variable := [⟨"A".toList, "\\\r".toList⟩]
    let returned : List Variable := [⟨"A".toList, "\\".toList⟩]
    Definitions.ofText false "A=\\\r\r\n".toList = .ok listed ∧ returned ≠ listed ∧
      Definitions.ofText false (dotenv.render listed) = .ok returned ∧
      Definitions.ofText false (shellExport.render listed) = .ok returned := by
  decide +kernel

end Layout

end Dotenv
