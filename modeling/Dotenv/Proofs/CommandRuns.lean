import Dotenv.Command.Run
import Dotenv.Proofs.DefinedNames
import Dotenv.Proofs.EntryLines

/-!
# What a check tells of other commands

Every command takes its settings and resolves its variables before its task matters.  What
fails there fails for every task alike, and a check fails in no other way.  After that a
command that only shows something cannot fail, and what it shows has a line for each of the
variables that the check has counted.
-/

namespace Dotenv

/-- Bytes that make up so many lines, each of them ended. -/
def Stream.HasLines (bytes : List UInt8) (number : Nat) : Prop :=
  ∃ bodies : List (List UInt8), bodies.length = number ∧
    (∀ body ∈ bodies, lineFeed ∉ body) ∧
    bytes = bodies.flatMap fun body => body ++ [lineFeed]

theorem Layout.hasLines_encode_render {layout : Layout} (plain : layout.IsPlain)
    {listed : List Variable}
    (single : ∀ entry ∈ listed, '\n' ∉ entry.name ∧ '\n' ∉ entry.value) :
    Stream.HasLines (Utf8.encode (layout.render listed)) listed.length := by
  induction listed with
  | nil => exact ⟨[], rfl, by simp, rfl⟩
  | cons entry rest ih =>
      obtain ⟨own, others⟩ := List.forall_mem_cons.mp single
      obtain ⟨bodies, count, inner, whole⟩ := ih others
      have line := Utf8.lineFeed_not_mem_encode (plain.lineFeed_not_mem_body own)
      refine ⟨_ :: bodies, by rw [List.length_cons, List.length_cons, count],
        List.forall_mem_cons.mpr ⟨line, inner⟩, ?_⟩
      rw [render_cons, plain.line_eq, Utf8.encode_append, Utf8.encode_append, whole]
      rfl

theorem VariableMap.IsSingleLine.hasLines_renderMap {map : VariableMap}
    (single : map.IsSingleLine) {layout : Layout} (plain : layout.IsPlain) :
    Stream.HasLines (Utf8.encode (layout.renderMap map)) map.size := by
  have lines := Layout.hasLines_encode_render plain single.areSingleLine.lineFeed_not_mem
  rwa [VariableMap.toVariables, List.length_map] at lines

theorem Failure.exitCode_ne_zero (failure : Failure) : failure.exitCode ≠ 0 := by
  obtain ⟨context, cause⟩ := failure
  cases cause with
  | resolution fault => cases fault <;> exact Nat.succ_ne_zero _
  | system error => exact Nat.succ_ne_zero 4
  | arguments fault => cases fault <;> exact Nat.succ_ne_zero _
  | replacement error => exact Nat.succ_ne_zero 4
  | other message => exact Nat.succ_ne_zero 0

/-- A task that only shows something: it checks, it prints, or it shows a call whose
arguments all stand for options. -/
inductive Task.Shows : Task → Prop
  | check : Shows .check
  | print (format : OutputFormat) : Shows (.print format)
  | call {call : Call} (dry : call.dryRun = true)
      (formed : ∀ argument ∈ call.arguments, (CallArgument.options? argument).isSome = true) :
      Shows (.exec call)

namespace Command

variable {world : World} {settings : Settings} {map : VariableMap}

theorem exists_callArguments {call : Call}
    (formed : ∀ argument ∈ call.arguments, (CallArgument.options? argument).isSome = true) :
    ∃ passed, callArguments call = .ok passed := by
  rw [callArguments]
  generalize call.arguments = arguments at formed
  induction arguments with
  | nil => exact ⟨call.extra, rfl⟩
  | cons argument rest ih =>
      obtain ⟨own, others⟩ := List.forall_mem_cons.mp formed
      obtain ⟨options, translated⟩ := Option.isSome_iff_exists.mp own
      obtain ⟨passed, later⟩ := ih others
      refine ⟨options ++ passed, ?_⟩
      rw [callArguments.go, translated, later]
      rfl

theorem perform_of_shows {task : Task} (shows : task.Shows) :
    ∃ text, perform world settings map task = printed world.tree text := by
  cases shows with
  | check => exact ⟨_, rfl⟩
  | print format => exact ⟨_, rfl⟩
  | call dry formed =>
      obtain ⟨passed, translated⟩ := exists_callArguments formed
      rw [perform, exec, translated]
      simp only [dry, if_true]
      exact ⟨_, rfl⟩

theorem resolve_eq_ok_iff {glob : Glob} {tree : FileTree} {patterns : List Text} :
    resolve glob tree settings patterns = .ok map ↔
      ∃ paths, matchingFiles glob tree patterns = .ok paths ∧
        VariableMap.ofSources settings tree (paths.map Source.file) = .ok map := by
  unfold resolve
  cases matchingFiles glob tree patterns with
  | error fault => simp
  | ok paths =>
      simp only [Except.ok.injEq, exists_eq_left']
      cases VariableMap.ofSources settings tree (paths.map Source.file) with
      | error fault => simp
      | ok merged => simp

/-- There are as many resolved variables as names that the matched files define. -/
theorem exists_definitions_of_resolve {glob : Glob} {tree : FileTree} {patterns : List Text}
    (resolved : resolve glob tree settings patterns = .ok map) :
    map.IsSingleLine ∧
      ∃ paths listed, matchingFiles glob tree patterns = .ok paths ∧
        Source.allDefinitions tree settings.allowBlankLines (paths.map .file) = .ok listed ∧
        map.size = (listed.map Variable.name).toFinset.card := by
  obtain ⟨paths, matched, merged⟩ := resolve_eq_ok_iff.mp resolved
  obtain ⟨listed, read, binds⟩ := VariableMap.bindsNames_of_ofSources merged
  exact ⟨(VariableMap.reached_of_ofSources merged).isSingleLine,
    paths, listed, matched, read, binds.size_eq⟩

theorem run_of_resolved {invocation : Invocation}
    (chosen : Command.settings world.environment invocation = .ok settings)
    (resolved : resolve world.glob world.tree settings invocation.patterns = .ok map) :
    run world invocation = perform world settings map invocation.task := by
  simp only [run, chosen, resolved]

/-- A command fails before its task matters, or it does its task with the variables of its
files.  Neither the task nor what it would read or launch decides which. -/
theorem run_cases (world : World) (invocation : Invocation) :
    (∃ failure, ∀ input launcher task,
      run { world with input := input, launcher := launcher }
        { invocation with task := task } = failed world.tree failure) ∨
    ∃ settings map, Command.settings world.environment invocation = .ok settings ∧
      resolve world.glob world.tree settings invocation.patterns = .ok map ∧
      ∀ input launcher task,
        run { world with input := input, launcher := launcher }
            { invocation with task := task } =
          perform { world with input := input, launcher := launcher } settings map task := by
  have same (task : Task) :
      Command.settings world.environment { invocation with task := task } =
        Command.settings world.environment invocation := rfl
  cases chosen : Command.settings world.environment invocation with
  | error failure =>
      refine .inl ⟨failure, ?_⟩
      intro input launcher task
      simp only [run, same, chosen]
  | ok settings =>
      cases resolved : resolve world.glob world.tree settings invocation.patterns with
      | error failure =>
          refine .inl ⟨failure, ?_⟩
          intro input launcher task
          simp only [run, same, chosen, resolved]
      | ok map =>
          refine .inr ⟨settings, map, rfl, resolved, ?_⟩
          intro input launcher task
          exact run_of_resolved chosen resolved

theorem eq_size_of_encode_checkReport {number : Nat}
    (equal : Utf8.encode (checkReport map) = Utf8.encode
      ("OK: ".toList ++ Text.decimal number ++ " variables resolved\n".toList)) :
    number = map.size := by
  have report := Utf8.encode_inj equal
  rw [checkReport, List.append_left_inj, List.append_right_inj] at report
  exact (Text.decimal_inj report).symm

/-- A check predicts the other commands with the same files and settings.  It succeeds, or
every command fails as it does, having written nothing.  Commands that only show something
end with its exit code.  The number that it tells is the number of different names that the
files define, and the number of lines that are printed. -/
theorem check_predicts (world : World) (invocation : Invocation) (input : List UInt8)
    (launcher : Launcher) :
    let checked := run world { invocation with task := .check }
    let outcome (task : Task) :=
      run { world with input := input, launcher := launcher } { invocation with task := task }
    (checked.result = .ok 0 ∨
      ∃ failure, failure.exitCode ≠ 0 ∧ checked = failed world.tree failure ∧
        ∀ task, outcome task = failed world.tree failure) ∧
    (∀ task, task.Shows → (outcome task).exitCode = checked.exitCode) ∧
    ∀ number, checked.output = Utf8.encode
        ("OK: ".toList ++ Text.decimal number ++ " variables resolved\n".toList) →
      ∃ settings paths listed,
        Command.settings world.environment invocation = .ok settings ∧
        matchingFiles world.glob world.tree invocation.patterns = .ok paths ∧
        Source.allDefinitions world.tree settings.allowBlankLines (paths.map .file) =
          .ok listed ∧
        number = (listed.map Variable.name).toFinset.card ∧
        Stream.HasLines (outcome (.print .dotenv)).output number ∧
        Stream.HasLines (outcome (.print .shellExport)).output number := by
  intro checked outcome
  rcases run_cases world invocation with
    ⟨failure, fails⟩ | ⟨settings, map, chosen, resolved, runs⟩
  · have checkFails : checked = failed world.tree failure := fails _ _ .check
    have allFail (task : Task) : outcome task = failed world.tree failure := fails _ _ task
    refine ⟨.inr ⟨failure, failure.exitCode_ne_zero, checkFails, allFail⟩, ?_, ?_⟩
    · intro task _
      rw [allFail, checkFails]
    · intro number told
      have silent : Utf8.encode [] = _ := (congrArg Outcome.output checkFails).symm.trans told
      cases Utf8.encode_inj silent
  · have checks : checked = printed world.tree (checkReport map) := runs _ _ .check
    refine ⟨.inl (congrArg Outcome.result checks), ?_, ?_⟩
    · intro task shows
      obtain ⟨text, shown⟩ := perform_of_shows shows
      have ran : outcome task = printed world.tree text := (runs _ _ task).trans shown
      rw [ran, checks]
      rfl
    · intro number told
      rw [checks] at told
      have size := eq_size_of_encode_checkReport told
      obtain ⟨single, paths, listed, matched, read, count⟩ :=
        exists_definitions_of_resolve resolved
      have prints (format : OutputFormat) :
          (outcome (.print format)).output = Utf8.encode (render world.writeJson format map) :=
        congrArg Outcome.output (runs _ _ (.print format))
      refine ⟨settings, paths, listed, chosen, matched, read, size.trans count, ?_, ?_⟩
      · rw [prints, size]
        exact single.hasLines_renderMap Layout.isPlain_dotenv
      · rw [prints, size]
        exact single.hasLines_renderMap Layout.isPlain_shellExport

/-- Three definitions of two names, in two files that a pattern from the root matches, with a
blank line that the environment allows. -/
theorem check_predicts_two_names :
    let files := FileTree.ofListing ["w".toList, "v".toList] []
      [("a.env".toList, Utf8.encode "A=1\n\nB=\"$A\"\n".toList),
        ("b.env".toList, Utf8.encode "A=$B\\\r2\n".toList)]
    let world := World.standard files
      [(Settings.allowBlankLinesName, Utf8.encode "true".toList)] [] Launch.nowhere
    let invocation : Invocation := ⟨["/w/v/?.env".toList], false, true, .check⟩
    let call : Call :=
      ⟨"ls".toList, ["l".toList, "sort=size".toList], [], false, true, false, false⟩
    (Task.exec call).Shows ∧
      (run world invocation).output = Utf8.encode "OK: 2 variables resolved\n".toList ∧
      (run world { invocation with task := .exec call }).exitCode = 0 ∧
      Stream.HasLines (run world { invocation with task := .print .dotenv }).output 2 ∧
      Stream.HasLines (run world { invocation with task := .print .shellExport }).output 2 := by
  intro files world invocation call
  obtain ⟨-, codes, counts⟩ := check_predicts world invocation [] Launch.nowhere
  have shows : (Task.exec call).Shows := .call rfl (by decide +kernel)
  have told : (run world invocation).output =
      Utf8.encode "OK: 2 variables resolved\n".toList := by decide +kernel
  have zero : (run world invocation).exitCode = 0 := by decide +kernel
  obtain ⟨-, -, -, -, -, -, -, plain, shell⟩ := counts 2 told
  exact ⟨shows, told, (codes _ shows).trans zero, plain, shell⟩

end Command

end Dotenv
