import Dotenv.Proofs.MergedMap

/-!
# Merges that fail

A merge that fails leaves the map of the definitions before the one that failed, and
the map as it was where the definitions could not be read at all.  Nothing else of the
failure stays: what is merged later sees that map and no more.
-/

namespace Dotenv

/-- Whether a fault arises while definitions are read, before any of them is made. -/
def Fault.isOfReading : Fault → Bool
  | .malformedLine _ _ | .ioFailure _ _ => true
  | .undefinedReference _ _ _ | .invalidReference _ _ | .invalidSetting _ _ => false

theorem Text.isOfReading_of_resolve {text : Text} {strict : Bool} {map : VariableMap}
    {definition : Option Text} {origin : Text} {fault : Fault}
    (failed : text.resolve strict map definition origin = .error fault) :
    fault.isOfReading = false := by
  rcases text.isClean_or_stray strict with clean | ⟨isStrict, before, stray⟩
  · rw [resolve_of_isClean clean] at failed
    split at failed
    · cases failed
    · cases failed
      rfl
  · rw [isStrict, resolve_of_stray stray] at failed
    cases failed
    rfl

theorem Definitions.isOfReading_of_ofStream {allowBlank : Bool} {origin : Text}
    {stream : Stream} {fault : Fault}
    (failed : ofStream allowBlank origin stream = .error fault) :
    fault.isOfReading = true := by
  obtain ⟨number, _, _, _, _, -, -, -, refuses⟩ := ofStream_eq_error_iff.mp failed
  cases refuses <;> rfl

theorem Source.isOfReading_of_definitions {tree : FileTree} {allowBlank : Bool}
    {source : Source} {fault : Fault}
    (failed : source.definitions tree allowBlank = .error fault) :
    fault.isOfReading = true := by
  unfold definitions at failed
  split at failed
  · cases failed
    rfl
  · exact Definitions.isOfReading_of_ofStream failed

/-- What is merged into a map at once: a source, as a file tree has it, or variables of an
origin that were read before. -/
inductive Addition where
  | ofSource (tree : FileTree) (source : Source)
  | ofVariables (origin : Text) (listed : List Variable)

namespace Addition

def origin : Addition → Text
  | .ofSource _ source => source.origin
  | .ofVariables origin _ => origin

def definitions (allowBlank : Bool) : Addition → Except Fault (List Variable)
  | .ofSource tree source => source.definitions tree allowBlank
  | .ofVariables _ listed => .ok listed

theorem isOfReading_of_definitions {addition : Addition} {allowBlank : Bool} {fault : Fault}
    (failed : addition.definitions allowBlank = .error fault) : fault.isOfReading = true := by
  cases addition with
  | ofSource tree source => exact Source.isOfReading_of_definitions failed
  | ofVariables origin listed => cases failed

end Addition

namespace VariableMap

def add (settings : Settings) (map : VariableMap) : Addition → Merge
  | .ofSource tree source => map.addSource settings tree source
  | .ofVariables origin listed => map.defineAll settings origin listed

/-- What additions to a map one after the other come to.  One that fails does not keep
the next from being tried. -/
def addEach (settings : Settings) (map : VariableMap) : List Addition → List Merge
  | [] => []
  | addition :: later =>
    let merged := map.add settings addition
    merged :: merged.map.addEach settings later

variable {settings : Settings} {origin : Text} {map : VariableMap} {fault : Fault}

theorem isOfReading_of_define {entry : Variable}
    (failed : map.define settings origin entry = .error fault) :
    fault.isOfReading = false := by
  unfold define at failed
  cases resolved :
      entry.value.resolve settings.strictReferences map (some entry.name) origin with
  | error found =>
      rw [resolved] at failed
      cases failed
      exact Text.isOfReading_of_resolve resolved
  | ok value =>
      rw [resolved] at failed
      cases failed

/-- Definitions fail at one of them, with the map that those before it make. -/
theorem exists_of_defineAll_fault {listed : List Variable}
    (failed : (map.defineAll settings origin listed).fault = some fault) :
    ∃ before entry after made, listed = before ++ entry :: after ∧
      map.defineAll settings origin before = ⟨made, none⟩ ∧
      made.define settings origin entry = .error fault ∧
      map.defineAll settings origin listed = ⟨made, some fault⟩ := by
  induction listed generalizing map with
  | nil => cases failed
  | cons entry rest ih =>
      cases first : map.define settings origin entry with
      | error found =>
          have stopped : map.defineAll settings origin (entry :: rest) = ⟨map, some found⟩ := by
            rw [defineAll, first]
          rw [stopped] at failed ⊢
          cases failed
          exact ⟨[], entry, rest, map, rfl, rfl, first, rfl⟩
      | ok next =>
          have goesOn (others : List Variable) :
              map.defineAll settings origin (entry :: others) =
                next.defineAll settings origin others := by
            rw [defineAll, first]
          rw [goesOn] at failed ⊢
          obtain ⟨before, failing, after, made, split, own, refused, whole⟩ := ih failed
          refine ⟨entry :: before, failing, after, made, ?_, ?_, refused, whole⟩
          · rw [split, List.cons_append]
          · rw [goesOn, own]

theorem add_of_definitions {addition : Addition} {listed : List Variable}
    (read : addition.definitions settings.allowBlankLines = .ok listed) :
    map.add settings addition = map.defineAll settings addition.origin listed := by
  cases addition with
  | ofSource tree source =>
      rw [Addition.definitions] at read
      rw [add, addSource, read]
      rfl
  | ofVariables origin others =>
      cases read
      rfl

theorem add_of_definitions_fault {addition : Addition}
    (failed : addition.definitions settings.allowBlankLines = .error fault) :
    map.add settings addition = ⟨map, some fault⟩ := by
  cases addition with
  | ofSource tree source =>
      rw [Addition.definitions] at failed
      rw [add, addSource, failed]
  | ofVariables origin listed => cases failed

/-- An addition that fails while it is read changes nothing.  One that fails at a
definition leaves the map that the definitions before that one make, where every other
name is as it was.  Either way the additions after it come to what they come to on a map
that holds this and nothing else. -/
theorem fault_leaves_definitions_before (settings : Settings) (map : VariableMap)
    (addition : Addition) (fault : Fault)
    (failed : (map.add settings addition).fault = some fault) :
    (fault.isOfReading = true →
      map.add settings addition = ⟨map, some fault⟩ ∧
      ∀ later, map.addEach settings (addition :: later) =
        ⟨map, some fault⟩ :: map.addEach settings later) ∧
    (fault.isOfReading = false → ∃ before entry after made,
      addition.definitions settings.allowBlankLines = .ok (before ++ entry :: after) ∧
      map.defineAll settings addition.origin before = ⟨made, none⟩ ∧
      made.define settings addition.origin entry = .error fault ∧
      map.add settings addition = ⟨made, some fault⟩ ∧
      (∀ name, name ∉ before.map Variable.name → made.get? name = map.get? name) ∧
      ∀ later, map.addEach settings (addition :: later) =
        ⟨made, some fault⟩ :: made.addEach settings later) := by
  have goesOn {made : VariableMap} (whole : map.add settings addition = ⟨made, some fault⟩)
      (later : List Addition) :
      map.addEach settings (addition :: later) =
        ⟨made, some fault⟩ :: made.addEach settings later := by
    rw [addEach, whole]
  cases read : addition.definitions settings.allowBlankLines with
  | error found =>
      have unchanged : map.add settings addition = ⟨map, some found⟩ :=
        add_of_definitions_fault read
      rw [unchanged] at failed
      cases failed
      refine ⟨fun _ => ⟨unchanged, goesOn unchanged⟩, fun ofDefinition => ?_⟩
      rw [Addition.isOfReading_of_definitions read] at ofDefinition
      cases ofDefinition
  | ok listed =>
      have all : map.add settings addition =
          map.defineAll settings addition.origin listed := add_of_definitions read
      rw [all] at failed
      obtain ⟨before, entry, after, made, split, own, refused, whole⟩ :=
        exists_of_defineAll_fault failed
      rw [← all] at whole
      refine ⟨fun ofReading => ?_, fun _ => ?_⟩
      · rw [isOfReading_of_define refused] at ofReading
        cases ofReading
      · refine ⟨before, entry, after, made, by rw [split], own, refused, whole, ?_,
          goesOn whole⟩
        intro name absent
        have kept : (map.defineAll settings addition.origin before).map.get? name =
            map.get? name := get?_defineAll_of_not_mem absent
        rwa [own] at kept

/-- A definition fails that would give a new value to a name which an earlier definition of
the same source has changed already, and another one stands after it. -/
theorem fault_leaves_definitions_before_redefined :
    let map : VariableMap := .ofVariables [⟨"A".toList, "0".toList⟩, ⟨"B".toList, "0".toList⟩]
    let late : Addition :=
      .ofSource .empty (.text "late".toList "A=1\nA=$C$B\nB=2\n".toList)
    let made : VariableMap := .ofVariables [⟨"A".toList, "1".toList⟩, ⟨"B".toList, "0".toList⟩]
    let fault : Fault := .undefinedReference (some "A".toList) "late".toList ["C".toList]
    (map.add {} late).fault = some fault ∧ fault.isOfReading = false ∧
      map.add {} late = ⟨made, some fault⟩ ∧
      map.addEach {} [late, .ofVariables "next".toList [⟨"D".toList, "$A$B".toList⟩]] =
        [⟨made, some fault⟩, ⟨made.insert "D".toList "10".toList, none⟩] := by
  intro map late made fault
  have failed : (map.add {} late).fault = some fault := by decide +kernel
  obtain ⟨before, entry, after, left, -, -, -, whole, -, goesOn⟩ :=
    (fault_leaves_definitions_before {} map late fault failed).2 rfl
  have own : map.add {} late = ⟨made, some fault⟩ := by decide +kernel
  rw [own] at whole
  cases whole
  refine ⟨failed, rfl, own, ?_⟩
  rw [goesOn]
  decide +kernel

end VariableMap

end Dotenv
