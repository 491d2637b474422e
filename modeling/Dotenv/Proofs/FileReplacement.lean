import Dotenv.Proofs.CommandRuns
import Dotenv.Proofs.CopiedOutput
import Dotenv.Proofs.Signals
import Dotenv.Proofs.TreeChanges

/-!
# Replacing a file by a substitution

A command that writes a substitution to a file makes the directories of the file, fills a
temporary file and moves it into place.  The system may fail it between any two of its
actions, and the temporary file may lie anywhere.  At every moment the tree is the one from
before, with nothing but directories above the output made, and beside it the temporary file
with a beginning of the output.  So a substitution reads from its input to the end what was
there before, also where the output takes the place of the input.
-/

namespace Dotenv

namespace SubstitutionRule

/-- All lines of a text are substituted in, and together they come to some bytes. -/
def Translates (rule : SubstitutionRule) (lines : List (List UInt8)) (output : List UInt8) :
    Prop :=
  ∃ expansions, List.Forall₂ rule.Expands lines expansions ∧ output = expansions.flatten

theorem translates_of_outcome {rule : SubstitutionRule} {failure : Option IoError}
    {number : Nat} {lines : List (List UInt8)} {output : List UInt8}
    (whole : rule.outcome failure number lines = (output, none)) :
    failure = none ∧ rule.Translates lines output := by
  obtain ⟨before, rest, expansions, split, all, bytes, ends⟩ :=
    rule.exists_outcome failure number lines
  rw [whole] at bytes ends
  cases rest with
  | nil =>
      rw [List.append_nil] at split
      subst split
      exact ⟨Option.map_eq_none_iff.mp (Eq.symm ends), expansions, all, bytes⟩
  | cons line later =>
      obtain ⟨fault, equal, -⟩ := ends
      cases equal

end SubstitutionRule

namespace Command

/-- The paths of the directories that an output file lies in. -/
def outputParents (path : Text) : List Text := Path.ancestors (outputDirectory path)

namespace Replacement

/-- How far the replacement of a file is: directories are made, a temporary file is filled
from a substitution, it is complete, or everything is over with a result. -/
inductive Stage where
  | preparing
  | filling (temporary : Location) (substitution : Substitution)
  | filled (temporary : Location)
  | ended (result : Except Failure Nat)

/-- The tree at a stage of the replacement of a file. -/
structure Moment where
  tree : FileTree
  stage : Stage

/-- What may happen next where the output of a rule on a stream goes to a path.  A temporary
file is put at a name that nothing has, takes what is read as reads of any sizes deliver it,
and is moved once nothing more is.  The command can fail at any time, which takes away the
temporary file. -/
inductive Step (rule : SubstitutionRule) (stream : Stream) (path : Text) :
    Moment → Moment → Prop
  | directoryMade {tree made : FileTree} {parent : Text}
      (isParent : parent ∈ outputParents path)
      (make : tree.makeDirectory parent = .ok made) :
      Step rule stream path ⟨tree, .preparing⟩ ⟨made, .preparing⟩
  | temporaryMade {tree : FileTree} {directory : Location} {name : Text}
      (isDirectory : tree.node? directory = some .directory)
      (fresh : tree.node? (directory ++ [name]) = none) :
      Step rule stream path ⟨tree, .preparing⟩
        ⟨tree.put (directory ++ [name]) (.file []),
          .filling (directory ++ [name]) (.start stream)⟩
  | written {tree : FileTree} {temporary : Location} {substitution after : Substitution}
      {held bytes : List UInt8} {size : Nat}
      (holds : tree.node? temporary = some (.file held)) (positive : 0 < size)
      (read : substitution.read rule size = (.ok bytes, after)) (nonempty : bytes ≠ []) :
      Step rule stream path ⟨tree, .filling temporary substitution⟩
        ⟨tree.put temporary (.file (held ++ bytes)), .filling temporary after⟩
  | retried {tree : FileTree} {temporary : Location} {substitution after : Substitution}
      {error : ReadError} {size : Nat} (positive : 0 < size)
      (read : substitution.read rule size = (.error error, after))
      (interrupted : error.kind = .interrupted) :
      Step rule stream path ⟨tree, .filling temporary substitution⟩
        ⟨tree, .filling temporary after⟩
  | completed {tree : FileTree} {temporary : Location} {substitution after : Substitution}
      {size : Nat} (positive : 0 < size)
      (read : substitution.read rule size = (.ok [], after)) :
      Step rule stream path ⟨tree, .filling temporary substitution⟩ ⟨tree, .filled temporary⟩
  | moved {tree replaced : FileTree} {temporary : Location} {contents : List UInt8}
      (holds : tree.node? temporary = some (.file contents))
      (move : (tree.remove temporary).replaceFile path contents = .ok replaced) :
      Step rule stream path ⟨tree, .filled temporary⟩ ⟨replaced, .ended (.ok 0)⟩
  | refused {tree : FileTree} (failure : Failure) :
      Step rule stream path ⟨tree, .preparing⟩ ⟨tree, .ended (.error failure)⟩
  | abandoned {tree : FileTree} {temporary : Location} {substitution : Substitution}
      (failure : Failure) :
      Step rule stream path ⟨tree, .filling temporary substitution⟩
        ⟨tree.remove temporary, .ended (.error failure)⟩
  | unmoved {tree : FileTree} {temporary : Location} (failure : Failure) :
      Step rule stream path ⟨tree, .filled temporary⟩
        ⟨tree.remove temporary, .ended (.error failure)⟩

/-- A tree with a temporary file of some contents beside what it was, where nothing but
directories above the output was made. -/
def HoldsBeside (tree after : FileTree) (path : Text) (temporary : Location)
    (contents : List UInt8) : Prop :=
  ∃ base, tree.OnlyMakes base (outputParents path) ∧ base.node? temporary = none ∧
    after = base.put temporary (.file contents)

/-- What is the case at every moment of a replacement that began with a tree. -/
def Moment.IsSound (rule : SubstitutionRule) (stream : Stream) (path : Text) (tree : FileTree)
    (moment : Moment) : Prop :=
  match moment.stage with
  | .preparing => tree.OnlyMakes moment.tree (outputParents path)
  | .filling temporary substitution =>
    ∃ held, HoldsBeside tree moment.tree path temporary held ∧
      (Substitution.start stream).owed rule =
        (held ++ (substitution.owed rule).1, (substitution.owed rule).2)
  | .filled temporary =>
    ∃ output, HoldsBeside tree moment.tree path temporary output ∧
      (Substitution.start stream).owed rule = (output, none)
  | .ended (.ok code) =>
    code = 0 ∧ ∃ output, (Substitution.start stream).owed rule = (output, none) ∧
      tree.Replaces moment.tree (outputParents path) path output
  | .ended (.error _) => tree.OnlyMakes moment.tree (outputParents path)

namespace HoldsBeside

variable {tree after : FileTree} {path : Text} {temporary : Location}
  {contents held : List UInt8}

theorem eq_of_node? (beside : HoldsBeside tree after path temporary contents)
    (holds : after.node? temporary = some (.file held)) : held = contents := by
  obtain ⟨base, -, fresh, equal⟩ := beside
  rw [equal, base.node?_put_same (FileTree.ne_nil_of_absent fresh)] at holds
  cases holds
  rfl

theorem put (beside : HoldsBeside tree after path temporary contents) (more : List UInt8) :
    HoldsBeside tree (after.put temporary (.file more)) path temporary more := by
  obtain ⟨base, only, fresh, equal⟩ := beside
  exact ⟨base, only, fresh, by rw [equal, FileTree.put_put]⟩

theorem preserves (beside : HoldsBeside tree after path temporary contents) :
    tree.Preserves after := by
  obtain ⟨base, only, fresh, equal⟩ := beside
  rw [equal]
  exact only.preserves.trans (FileTree.preserves_put fresh _)

/-- Without the temporary file there are only new directories. -/
theorem remove (beside : HoldsBeside tree after path temporary contents) :
    tree.OnlyMakes (after.remove temporary) (outputParents path) := by
  obtain ⟨base, only, fresh, equal⟩ := beside
  rw [equal, FileTree.remove_put fresh]
  exact only

end HoldsBeside

section Run

variable {rule : SubstitutionRule} {stream : Stream} {path : Text} {tree : FileTree}
  {moment next : Moment}

/-- Every step keeps what is the case. -/
theorem Step.isSound (step : Step rule stream path moment next)
    (sound : moment.IsSound rule stream path tree) : next.IsSound rule stream path tree := by
  cases step with
  | directoryMade isParent make => exact FileTree.OnlyMakes.makeDirectory sound isParent make
  | temporaryMade isDirectory fresh => exact ⟨[], ⟨_, sound, fresh, rfl⟩, rfl⟩
  | @written _ _ _ after _ bytes _ holds positive read nonempty =>
      obtain ⟨held, beside, owed⟩ := sound
      have same := beside.eq_of_node? holds
      subst same
      refine ⟨_, beside.put _, ?_⟩
      rw [owed, Delivery.owed_of_read_bytes positive read nonempty, List.append_assoc]
  | retried positive read interrupted =>
      obtain ⟨held, beside, owed⟩ := sound
      obtain ⟨fault, -, before, after⟩ := Delivery.owed_of_read_error positive read
      exact ⟨held, beside, by rw [owed, before, after]⟩
  | completed positive read =>
      obtain ⟨held, beside, owed⟩ := sound
      rw [Delivery.owed_of_read_end positive read, List.append_nil] at owed
      exact ⟨held, beside, owed⟩
  | moved holds move =>
      obtain ⟨output, beside, owed⟩ := sound
      have same := beside.eq_of_node? holds
      subst same
      exact ⟨rfl, _, owed, beside.remove.replaceFile move⟩
  | refused failure => exact sound
  | abandoned failure =>
      obtain ⟨held, beside, -⟩ := sound
      exact beside.remove
  | unmoved failure =>
      obtain ⟨output, beside, -⟩ := sound
      exact beside.remove

/-- What can come of a replacement that begins with a tree. -/
def Reaches (rule : SubstitutionRule) (stream : Stream) (path : Text) (tree : FileTree) :
    Moment → Prop :=
  Relation.ReflTransGen (Step rule stream path) ⟨tree, .preparing⟩

theorem Reaches.isSound (reaches : Reaches rule stream path tree moment) :
    moment.IsSound rule stream path tree := by
  induction reaches with
  | refl => exact FileTree.onlyMakes_refl tree (outputParents path)
  | tail earlier step ih => exact step.isSound ih

/-- A copy that comes to its end fills a temporary file with all that it brings. -/
theorem reaches_filled {base : FileTree} {temporary : Location}
    (fresh : base.node? temporary = none) {taken count : Nat} {substitution : Substitution}
    {delivery : Delivery} (copies : Delivery.Copies rule .unlimited taken substitution delivery)
    (whole : delivery.outcome = .ok count) (held : List UInt8) :
    Relation.ReflTransGen (Step rule stream path)
      ⟨base.put temporary (.file held), .filling temporary substitution⟩
      ⟨base.put temporary (.file (held ++ delivery.bytes)), .filled temporary⟩ := by
  have away := FileTree.ne_nil_of_absent fresh
  induction copies generalizing held with
  | ended positive read =>
      rw [List.append_nil]
      exact .single (.completed positive read)
  | failed positive read final => cases whole
  | retried positive read interrupted later ih =>
      exact .head (.retried positive read interrupted) (ih whole held)
  | @written _ _ _ _ bytes _ delivery positive read nonempty accept later ih =>
      cases accept
      have holds := base.node?_put_same away (.file held)
      have step : Step rule stream path _ _ := .written holds positive read nonempty
      rw [FileTree.put_put] at step
      have rest := ih whole (held ++ bytes)
      rw [List.append_assoc] at rest
      exact .head step rest
  | refused positive read nonempty accept final => cases accept

theorem reaches_directories (rule : SubstitutionRule) (stream : Stream) (path : Text)
    (tree : FileTree) :
    Reaches rule stream path tree
      ⟨(tree.makeDirectories (outputDirectory path)).tree, .preparing⟩ := by
  refine Relation.ReflTransGen.lift (fun tree => Moment.mk tree .preparing) ?_ _ _
    (tree.reaches_makeDirectoriesFrom (outputParents path))
  rintro before made ⟨parent, isParent, make⟩
  exact .directoryMade isParent make

/-- Where the output comes to its end and can be put at its path, a replacement goes through
all of its stages. -/
theorem Reaches.replaced {base replaced : FileTree} {count : Nat}
    (reaches : Reaches rule stream path tree ⟨base, .preparing⟩)
    (whole : (stream.substituteInto rule .unlimited).outcome = .ok count)
    (replace : base.replaceFile path (stream.substituteInto rule .unlimited).bytes =
      .ok replaced) :
    Reaches rule stream path tree ⟨replaced, .ended (.ok 0)⟩ := by
  obtain ⟨directory, -, isDirectory, -⟩ := FileTree.exists_of_replaceFile replace
  obtain ⟨name, fresh⟩ := base.exists_fresh_name directory
  have final : Sink.IsFinal .unlimited := trivial
  have filled : Relation.ReflTransGen (Step rule stream path) _ _ :=
    reaches_filled fresh (stream.copies_substituteInto rule final) whole []
  have holds := base.node?_put_same (FileTree.ne_nil_of_absent fresh)
    (.file (stream.substituteInto rule .unlimited).bytes)
  refine .tail ((reaches.tail (.temporaryMade isDirectory fresh)).trans filled) (.moved holds ?_)
  rw [List.nil_append, FileTree.remove_put fresh]
  exact replace

/-- What a command does that writes to a file is one of the things that can come of it. -/
theorem reaches_readToFile (rule : SubstitutionRule) (stream : Stream) (path : Text)
    (tree : FileTree) :
    (readToFile tree rule stream path).output = [] ∧
      Reaches rule stream path tree ⟨(readToFile tree rule stream path).tree,
        .ended (readToFile tree rule stream path).result⟩ := by
  unfold readToFile
  extract_lets directory made delivery
  have prepared : Reaches rule stream path tree ⟨made.tree, .preparing⟩ := by
    dsimp only [made]
    split
    · exact .refl
    · exact reaches_directories rule stream path tree
  split
  · exact ⟨rfl, prepared.tail (.refused _)⟩
  · split
    · exact ⟨rfl, prepared.tail (.refused _)⟩
    · rename_i count whole
      split
      · exact ⟨rfl, prepared.tail (.refused _)⟩
      · rename_i replaced replace
        exact ⟨rfl, prepared.replaced whole replace⟩

/-- Before the output is in its place, all that was there is there unchanged. -/
theorem Moment.IsSound.preserves (sound : moment.IsSound rule stream path tree)
    (early : ∀ code, moment.stage ≠ .ended (.ok code)) : tree.Preserves moment.tree := by
  obtain ⟨after, stage⟩ := moment
  cases stage with
  | preparing => exact FileTree.OnlyMakes.preserves sound
  | filling temporary substitution =>
      obtain ⟨held, beside, -⟩ := sound
      exact beside.preserves
  | filled temporary =>
      obtain ⟨output, beside, -⟩ := sound
      exact beside.preserves
  | ended result =>
      cases result with
      | error failure => exact FileTree.OnlyMakes.preserves sound
      | ok code => exact absurd rfl (early code)

end Run

end Replacement

variable {world : World} {input : Option Text}

/-- The bytes that a command reads, as they are before it runs. -/
def IsInput (world : World) (input : Option Text) (contents : List UInt8) : Prop :=
  match input with
  | none => contents = world.input
  | some given => world.tree.HasFile given contents

/-- A result with the tree that goes with it.  Where the command failed, nothing has changed
but that missing directories above the output may have been made.  Otherwise the output has
all lines of the input, substituted in, and no other file has changed. -/
def IsWholeOrNothing (world : World) (rule : SubstitutionRule) (input : Option Text)
    (path : Text) (after : FileTree) : Except Failure Nat → Prop
  | .error _ => world.tree.OnlyMakes after (outputParents path)
  | .ok code => code = 0 ∧ ∃ contents output, IsInput world input contents ∧
      rule.Translates (cutAfter Stream.endsLine contents) output ∧
      world.tree.Replaces after (outputParents path) path output

theorem exists_contents_of_openInput {origin : Text} {stream : Stream}
    (opened : openInput world input = .ok (origin, stream))
    (calm : stream.transcript.failure = none) :
    ∃ contents, IsInput world input contents ∧
      stream.transcript.lines = cutAfter Stream.endsLine contents := by
  cases input with
  | none =>
      cases opened
      exact ⟨world.input, rfl, by rw [Stream.transcript_ofBytes]⟩
  | some given =>
      cases found : world.tree.openFile given with
      | error error =>
          simp only [openInput, found] at opened
          cases opened
      | ok inner =>
          simp only [openInput, found] at opened
          cases opened
          rcases FileTree.openFile_cases found with ⟨contents, holds, equal⟩ | equal
          · exact ⟨contents, holds, by rw [equal, Stream.transcript_ofBytes]⟩
          · rw [equal, Stream.transcript_of_error rfl] at calm
            cases calm

theorem isWholeOrNothing_of_reaches {origin path : Text} {stream : Stream}
    {rule : SubstitutionRule} {after : FileTree} {result : Except Failure Nat}
    (opened : openInput world input = .ok (origin, stream))
    (reaches : Replacement.Reaches rule stream path world.tree ⟨after, .ended result⟩) :
    IsWholeOrNothing world rule input path after result := by
  have sound := reaches.isSound
  cases result with
  | error failure => exact sound
  | ok code =>
      obtain ⟨zero, output, owed, replaces⟩ := sound
      obtain ⟨calm, translates⟩ : stream.transcript.failure = none ∧
          rule.Translates stream.transcript.lines output :=
        SubstitutionRule.translates_of_outcome owed
      obtain ⟨contents, isInput, lines⟩ := exists_contents_of_openInput opened calm
      rw [lines] at translates
      exact ⟨zero, contents, output, isInput, translates, replaces⟩

/-- Writing to a file is all or nothing.  A command fails before it reads, or it opens its
input and what it does is one run among all those that the system can cause by a failure
between any two actions and by any choice of a temporary file.  None of these runs ends
otherwise than with the whole output in its place or with nothing changed, but that missing
directories above the output may have been made.  Until it ends, every file is found with
what it held before, among them the input and the files that define the variables. -/
theorem read_writes_whole_or_nothing (world : World) (input : Option Text) (path : Text) :
    (∀ settings map,
      let outcome := read world settings map input (some path)
      outcome.output = [] ∧
      ((∃ failure, openInput world input = .error failure ∧
          outcome = failed world.tree failure) ∨
        ∃ origin stream, openInput world input = .ok (origin, stream) ∧
          let rule : SubstitutionRule := ⟨map, settings.strictReferences, origin⟩
          IsWholeOrNothing world rule input path outcome.tree outcome.result ∧
          Replacement.Reaches rule stream path world.tree ⟨outcome.tree, .ended outcome.result⟩ ∧
          ∀ tree stage, Replacement.Reaches rule stream path world.tree ⟨tree, stage⟩ →
            (∀ result, stage = .ended result →
              IsWholeOrNothing world rule input path tree result) ∧
            ((∀ code, stage ≠ .ended (.ok code)) → ∀ given contents,
              world.tree.HasFile given contents → tree.HasFile given contents))) ∧
    ∀ invocation,
      let outcome := run world { invocation with task := .read input (some path) }
      (∃ failure, outcome = failed world.tree failure) ∨
      ∃ settings map, Command.settings world.environment invocation = .ok settings ∧
        resolve world.glob world.tree settings invocation.patterns = .ok map ∧
        outcome = read world settings map input (some path) := by
  refine ⟨?_, ?_⟩
  · intro settings map outcome
    cases opened : openInput world input with
    | error failure =>
        have fails : outcome = failed world.tree failure := by
          simp only [outcome, read, opened]
        exact ⟨by rw [fails]; rfl, .inl ⟨failure, rfl, fails⟩⟩
    | ok pair =>
        obtain ⟨origin, stream⟩ := pair
        have equal : outcome = readToFile world.tree
            ⟨map, settings.strictReferences, origin⟩ stream path := by
          simp only [outcome, read, opened]
        obtain ⟨silent, reaches⟩ := Replacement.reaches_readToFile
          ⟨map, settings.strictReferences, origin⟩ stream path world.tree
        rw [← equal] at silent reaches
        refine ⟨silent, .inr ⟨origin, stream, rfl, isWholeOrNothing_of_reaches opened reaches,
          reaches, ?_⟩⟩
        intro tree stage reached
        refine ⟨?_, ?_⟩
        · rintro result rfl
          exact isWholeOrNothing_of_reaches opened reached
        · intro early given contents found
          exact (reached.isSound.preserves early).hasFile found
  · intro invocation outcome
    rcases run_cases world invocation with
      ⟨failure, fails⟩ | ⟨settings, map, chosen, resolved, runs⟩
    · exact .inl ⟨failure, fails world.input world.launcher _⟩
    · exact .inr ⟨settings, map, chosen, resolved, runs world.input world.launcher _⟩

/-- A file that is its own definitions, its input and its output, each by a different path. -/
theorem read_writes_whole_or_nothing_onto_itself :
    let contents := Utf8.encode "A=1\nB=\"$A\"\n".toList
    let location := ["w".toList, "a.env".toList]
    let world := World.standard
      (.ofListing ["w".toList] [] [("a.env".toList, contents)]) [] [] Launch.nowhere
    let input := "a.env".toList
    let path := "../w/a.env".toList
    let invocation : Invocation :=
      ⟨["/w/*.env".toList], false, false, .read (some input) (some path)⟩
    let outcome := run world invocation
    world.tree.locate input = .ok location ∧ world.tree.locate path = .ok location ∧
      world.tree.node? location = some (.file contents) ∧ outcome.result = .ok 0 ∧
      world.tree.Replaces outcome.tree (outputParents path) path
        (Utf8.encode "A=1\nB=\"1\"\n".toList) := by
  intro contents location world input path invocation outcome
  let map : VariableMap :=
    .ofVariables [⟨"A".toList, "1".toList⟩, ⟨"B".toList, "\"1\"".toList⟩]
  have before : world.tree.locate input = .ok location ∧ world.tree.locate path = .ok location ∧
      world.tree.node? location = some (.file contents) := by decide +kernel
  have chosen : settings world.environment invocation = .ok ⟨false, false⟩ := rfl
  have resolved : resolve world.glob world.tree ⟨false, false⟩ invocation.patterns = .ok map := by
    decide +kernel
  have runs := run_of_resolved chosen resolved
  have performed : outcome = read world ⟨false, false⟩ map (some input) (some path) := runs
  have final : Sink.IsFinal .unlimited := trivial
  have written : outcome.result = .ok 0 ∧ outcome.tree.locate path = .ok location ∧
      outcome.tree.node? location = some (.file (Utf8.encode "A=1\nB=\"1\"\n".toList)) := by
    rw [performed]
    simp only [read, readToFile, Stream.substituteInto_eq _ final]
    decide +kernel
  obtain ⟨zero, leads, holds⟩ := written
  obtain ⟨-, ⟨failure, -, fails⟩ | ⟨origin, stream, -, whole, -⟩⟩ :=
    (read_writes_whole_or_nothing world (some input) path).1 ⟨false, false⟩ map
  · rw [← performed] at fails
    rw [fails] at zero
    cases zero
  · rw [← performed, zero] at whole
    obtain ⟨-, -, output, -, -, same, place, way, found, others⟩ := whole
    cases leads.symm.trans way
    cases holds.symm.trans found
    exact ⟨before.1, before.2.1, before.2.2, zero, same, location, leads, holds, others⟩

end Command

end Dotenv
