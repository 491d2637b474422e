import Dotenv.Proofs.TreeWalks
import Mathlib.Logic.Relation

/-!
# Changes of a file tree

Making directories leaves all that was there as it was.  Putting a file in the place of
another changes this file only.
-/

namespace Dotenv

namespace FileTree

variable {tree after : FileTree} {location : Location}

/-- One of some directories is made. -/
def MakesOneOf (paths : List Text) (tree made : FileTree) : Prop :=
  ∃ path ∈ paths, tree.makeDirectory path = .ok made

theorem tree_acceptDirectory (tree : FileTree) (path : Text) (error : IoError) :
    (tree.acceptDirectory path error).tree = tree := rfl

/-- Making a directory with its parents makes them one by one, also where it fails. -/
theorem reaches_makeDirectoriesFrom (tree : FileTree) (paths : List Text) :
    Relation.ReflTransGen (MakesOneOf paths) tree (tree.makeDirectoriesFrom paths).tree := by
  induction paths generalizing tree with
  | nil => exact .refl
  | cons path parents ih =>
      have widen {first second : FileTree} (makes : MakesOneOf parents first second) :
          MakesOneOf (path :: parents) first second :=
        makes.imp fun _ one => ⟨List.mem_cons_of_mem path one.1, one.2⟩
      have above := Relation.ReflTransGen.mono (fun _ _ => widen) _ _ (ih tree)
      rw [makeDirectoriesFrom]
      split
      · exact .refl
      · split
        · rename_i made make
          exact .single ⟨path, List.mem_cons_self, make⟩
        · split
          · dsimp only
            split
            · exact above
            · split
              · rename_i made make
                exact above.tail ⟨path, List.mem_cons_self, make⟩
              · rw [tree_acceptDirectory]
                exact above
          · rw [tree_acceptDirectory]

/-- A path leads to a file of given contents. -/
def HasFile (tree : FileTree) (path : Text) (contents : List UInt8) : Prop :=
  ∃ location, tree.locate path = .ok location ∧ tree.node? location = some (.file contents)

/-- What opens is a file, or a directory that cannot be read. -/
theorem openFile_cases {path : Text} {stream : Stream}
    (opened : tree.openFile path = .ok stream) :
    (∃ contents, tree.HasFile path contents ∧ stream = .ofBytes contents) ∨
      stream = [.failure .isADirectory] := by
  unfold openFile at opened
  cases leads : tree.locate path with
  | error error =>
      rw [leads] at opened
      cases opened
  | ok location =>
      rw [leads] at opened
      simp only [Except.map] at opened
      split at opened
      · rename_i contents holds
        cases opened
        exact .inl ⟨contents, ⟨location, leads, holds⟩, rfl⟩
      · cases opened
        exact .inr rfl

/-- What was there is there unchanged, and the working directory is the same. -/
structure Preserves (tree after : FileTree) : Prop where
  working : after.working = tree.working
  node : ∀ location node, tree.node? location = some node → after.node? location = some node

theorem preserves_put (absent : tree.node? location = none) (node : Node) :
    Preserves tree (tree.put location node) := by
  refine ⟨rfl, ?_⟩
  intro other held holds
  rw [node?_put_of_ne tree (ne_nil_of_absent absent)]
  · exact holds
  · rintro rfl
    rw [absent] at holds
    cases holds

namespace Preserves

theorem trans {later : FileTree} (first : Preserves tree after) (second : Preserves after later) :
    Preserves tree later where
  working := second.working.trans first.working
  node location node holds := second.node location node (first.node location node holds)

theorem keeps (preserves : Preserves tree after) : Keeps tree after where
  working := preserves.working
  directory location := preserves.node location .directory
  present location present := by
    obtain ⟨node, holds⟩ := Option.isSome_iff_exists.mp present
    rw [preserves.node location node holds]
    rfl

/-- A file that was found at a path is still found there. -/
theorem hasFile (preserves : Preserves tree after) {path : Text} {contents : List UInt8}
    (found : tree.HasFile path contents) : after.HasFile path contents := by
  obtain ⟨location, leads, holds⟩ := found
  exact ⟨location, preserves.keeps.locate leads, preserves.node location _ holds⟩

end Preserves

/-- A location holds what it held, or it was empty and is a directory to which one of some
paths leads. -/
def KeptOrMade (tree after : FileTree) (paths : List Text) (location : Location) : Prop :=
  after.node? location = tree.node? location ∨
    tree.node? location = none ∧ after.node? location = some .directory ∧
      ∃ path ∈ paths, after.locate path = .ok location

/-- Nothing is changed, but missing directories may have been made at some paths. -/
structure OnlyMakes (tree after : FileTree) (paths : List Text) : Prop where
  working : after.working = tree.working
  keptOrMade : ∀ location, KeptOrMade tree after paths location

/-- A path leads to a file of given contents, where no directory was.  Nothing else is
changed, but missing directories may have been made at some paths. -/
def Replaces (tree after : FileTree) (paths : List Text) (path : Text)
    (contents : List UInt8) : Prop :=
  after.working = tree.working ∧ ∃ location, after.locate path = .ok location ∧
    after.node? location = some (.file contents) ∧
    tree.node? location ≠ some .directory ∧
    ∀ other, other ≠ location → KeptOrMade tree after paths other

section Made

variable {paths : List Text} {path : Text} {later made : FileTree}

theorem KeptOrMade.of_keeps (before : KeptOrMade tree after paths location)
    (keeps : Keeps after later) (same : later.node? location = after.node? location) :
    KeptOrMade tree later paths location := by
  rcases before with unchanged | ⟨absent, isDirectory, path, member, leads⟩
  · exact .inl (same.trans unchanged)
  · exact .inr ⟨absent, same.trans isDirectory, path, member, keeps.locate leads⟩

theorem onlyMakes_refl (tree : FileTree) (paths : List Text) : OnlyMakes tree tree paths :=
  ⟨rfl, fun _ => .inl rfl⟩

theorem OnlyMakes.preserves (only : OnlyMakes tree after paths) : Preserves tree after := by
  refine ⟨only.working, ?_⟩
  intro location node holds
  rcases only.keptOrMade location with unchanged | ⟨absent, -⟩
  · exact unchanged.trans holds
  · rw [holds] at absent
    cases absent

theorem OnlyMakes.makeDirectory (only : OnlyMakes tree after paths) (member : path ∈ paths)
    (make : after.makeDirectory path = .ok made) : OnlyMakes tree made paths := by
  obtain ⟨place, absent, rfl, leads⟩ := exists_of_makeDirectory make
  have away := ne_nil_of_absent absent
  refine ⟨only.working, ?_⟩
  intro location
  by_cases here : location = place
  · subst here
    rcases only.keptOrMade location with unchanged | ⟨-, isDirectory, -⟩
    · exact .inr ⟨unchanged.symm.trans absent, after.node?_put_same away .directory, path, member,
        leads⟩
    · exact absurd isDirectory (ne_directory_of_absent absent)
  · exact (only.keptOrMade location).of_keeps
      (keeps_put (ne_directory_of_absent absent) .directory)
      (after.node?_put_of_ne away .directory here)

theorem OnlyMakes.replaceFile (only : OnlyMakes tree after paths) {contents : List UInt8}
    {replaced : FileTree} (replace : after.replaceFile path contents = .ok replaced) :
    Replaces tree replaced paths path contents := by
  obtain ⟨directory, name, -, free, rfl, leads⟩ := exists_of_replaceFile replace
  have away := ne_nil_of_node?_ne free
  refine ⟨only.working, directory ++ [name], leads, after.node?_put_same away _, ?_, ?_⟩
  · intro isDirectory
    exact free (only.preserves.node _ _ isDirectory)
  · intro other apart
    exact (only.keptOrMade other).of_keeps (keeps_put free (.file contents))
      (after.node?_put_of_ne away _ apart)

end Made

end FileTree

end Dotenv
