import Dotenv.FileTree
import Mathlib.Data.List.TakeWhile
import Mathlib.Data.Set.Finite.Basic

/-!
# Ways through a file tree

Where no directory gives way and nothing is taken away, every path that led somewhere leads
to the same place.  So a path leads to the directory that was made there, and to the file
that was put there.
-/

namespace Dotenv

theorem Path.segments_of_target? {path : Text} {target : Target}
    (found : target? path = some target) :
    ∃ rest, segments path = target.before ++ target.name :: rest ∧
      (∀ segment ∈ rest, segment = []) ∧ target.name ≠ [] ∧
      (target.slashed = false → rest = []) := by
  have split := List.takeWhile_append_dropWhile (p := List.isEmpty) (l := (segments path).reverse)
  have stop := List.head?_dropWhile_not List.isEmpty (segments path).reverse
  unfold target? at found
  cases dropped : (segments path).reverse.dropWhile List.isEmpty with
  | nil =>
      simp only [dropped] at found
      cases found
  | cons name before =>
      rw [dropped] at split stop
      simp only [dropped, Option.some.injEq] at found
      subst found
      have whole := congrArg List.reverse split
      have length := congrArg List.length split
      refine ⟨((segments path).reverse.takeWhile List.isEmpty).reverse, ?_, ?_, ?_, ?_⟩
      · simpa using whole.symm
      · intro segment member
        simpa using List.mem_takeWhile_imp (List.mem_reverse.mp member)
      · simpa using stop
      · intro plain
        rw [decide_eq_false_iff_not] at plain
        rw [List.length_append, List.length_cons] at length
        rw [List.reverse_eq_nil_iff, ← List.length_eq_zero_iff]
        omega

namespace FileTree

/-- Take away what a location holds. -/
def remove (tree : FileTree) (location : Location) : FileTree :=
  { tree with nodes := tree.nodes.erase location }

variable {tree after : FileTree} {location : Location}

theorem node?_nil (tree : FileTree) : tree.node? [] = some .directory := rfl

theorem node?_of_ne_nil (tree : FileTree) (away : location ≠ []) :
    tree.node? location = tree.nodes.get? location := by
  cases location with
  | nil => exact absurd rfl away
  | cons name rest => rfl

theorem ne_nil_of_node?_ne (other : tree.node? location ≠ some .directory) : location ≠ [] := by
  rintro rfl
  exact other tree.node?_nil

theorem ne_directory_of_absent (absent : tree.node? location = none) :
    tree.node? location ≠ some .directory := by
  rw [absent]
  exact nofun

theorem ne_nil_of_absent (absent : tree.node? location = none) : location ≠ [] :=
  ne_nil_of_node?_ne (ne_directory_of_absent absent)

theorem node?_put (tree : FileTree) (away : location ≠ []) (node : Node) (wanted : Location) :
    (tree.put location node).node? wanted =
      if wanted = location then some node else tree.node? wanted := by
  cases wanted with
  | nil => rw [if_neg away.symm, node?_nil, node?_nil]
  | cons name rest => exact tree.nodes.get?_insert location node (name :: rest)

theorem node?_put_same (tree : FileTree) (away : location ≠ []) (node : Node) :
    (tree.put location node).node? location = some node := by
  rw [node?_put tree away, if_pos rfl]

theorem node?_put_of_ne (tree : FileTree) (away : location ≠ []) (node : Node)
    {wanted : Location} (other : wanted ≠ location) :
    (tree.put location node).node? wanted = tree.node? wanted := by
  rw [node?_put tree away, if_neg other]

theorem put_put (tree : FileTree) (location : Location) (first second : Node) :
    (tree.put location first).put location second = tree.put location second :=
  congrArg (FileTree.mk · tree.working) (tree.nodes.insert_insert location first second)

theorem remove_put (absent : tree.node? location = none) (node : Node) :
    (tree.put location node).remove location = tree := by
  rw [node?_of_ne_nil tree (ne_nil_of_absent absent)] at absent
  exact congrArg (FileTree.mk · tree.working) (SortedMap.erase_insert absent node)

/-- There is always a name that nothing in a directory has. -/
theorem exists_fresh_name (tree : FileTree) (location : Location) :
    ∃ name, tree.node? (location ++ [name]) = none := by
  have injective : Function.Injective fun name : Text => location ++ [name] := by
    intro first second equal
    simpa using equal
  obtain ⟨taken, ⟨name, equal⟩, fresh⟩ :=
    (Set.infinite_range_of_injective injective).exists_notMem_finset tree.nodes.keys.toFinset
  subst equal
  refine ⟨name, ?_⟩
  rw [node?_of_ne_nil tree (by simp)]
  simpa [SortedMap.mem_keys_iff, SortedMap.contains] using fresh

/-- Directories stay directories, the working directory stays the same, and where something
was something is. -/
structure Keeps (tree after : FileTree) : Prop where
  working : after.working = tree.working
  directory : ∀ location, tree.node? location = some .directory →
    after.node? location = some .directory
  present : ∀ location, (tree.node? location).isSome = true →
    (after.node? location).isSome = true

theorem keeps_put (free : tree.node? location ≠ some .directory) (node : Node) :
    Keeps tree (tree.put location node) := by
  have away := ne_nil_of_node?_ne free
  refine ⟨rfl, ?_, ?_⟩
  · intro other isDirectory
    rw [node?_put_of_ne tree away]
    · exact isDirectory
    · rintro rfl
      exact free isDirectory
  · intro other present
    rw [node?_put tree away]
    split
    · rfl
    · exact present

namespace Keeps

theorem walk (kept : Keeps tree after) {target : Location} {segments : List Text}
    (found : tree.walk location segments = .ok target) :
    after.walk location segments = .ok target := by
  induction segments generalizing location with
  | nil => exact found
  | cons segment rest ih =>
      unfold FileTree.walk at found ⊢
      split at found
      · rename_i isDirectory
        rw [if_pos (kept.directory location isDirectory)]
        split at found
        · rename_i idle
          rw [if_pos idle]
          exact ih found
        · rename_i moves
          rw [if_neg moves]
          split at found
          · rename_i up
            rw [if_pos up]
            exact ih found
          · rename_i down
            rw [if_neg down]
            split at found
            · cases found
            · rename_i short
              rw [if_neg short]
              split at found
              · rename_i present
                rw [if_pos (kept.present _ present)]
                exact ih found
              · cases found
      · cases found

theorem startOf (kept : Keeps tree after) (path : Text) :
    after.startOf path = tree.startOf path := by
  rw [FileTree.startOf, FileTree.startOf, kept.working]

theorem locate (kept : Keeps tree after) {path : Text}
    (found : tree.locate path = .ok location) : after.locate path = .ok location := by
  unfold FileTree.locate at found ⊢
  split at found
  · cases found
  · rw [kept.startOf]
    exact kept.walk found

end Keeps

theorem walk_append (tree : FileTree) (location : Location) (first second : List Text) :
    tree.walk location (first ++ second) =
      (tree.walk location first).bind fun next => tree.walk next second := by
  induction first generalizing location with
  | nil => rfl
  | cons segment rest ih =>
      rw [List.cons_append, walk, walk]
      split
      · split
        · exact ih location
        · split
          · exact ih location.dropLast
          · split
            · rfl
            · split
              · exact ih _
              · rfl
      · rfl

/-- A way that ends in a dot ends in a directory. -/
theorem walk_append_dot_eq_ok_iff {target : Location} {segments : List Text} :
    tree.walk location (segments ++ [['.']]) = .ok target ↔
      tree.walk location segments = .ok target ∧ tree.node? target = some .directory := by
  rw [walk_append]
  cases tree.walk location segments with
  | error error => simp [Except.bind]
  | ok next =>
      have idle : Path.isIdle ['.'] = true := rfl
      simp only [Except.bind, walk, Except.ok.injEq, if_pos idle]
      by_cases isDirectory : tree.node? next = some .directory
      · rw [if_pos isDirectory, Except.ok.injEq]
        constructor
        · rintro rfl
          exact ⟨rfl, isDirectory⟩
        · exact And.left
      · rw [if_neg isDirectory]
        constructor
        · exact nofun
        · rintro ⟨rfl, other⟩
          exact absurd other isDirectory

theorem walk_of_empty {segments : List Text} (isDirectory : tree.node? location = some .directory)
    (empty : ∀ segment ∈ segments, segment = []) :
    tree.walk location segments = .ok location := by
  induction segments with
  | nil => rfl
  | cons segment rest ih =>
      obtain ⟨own, others⟩ := List.forall_mem_cons.mp empty
      have idle : Path.isIdle segment = true := by rw [own]; rfl
      rw [walk, if_pos isDirectory, if_pos idle]
      exact ih others

theorem walk_of_entry {name : Text} (isDirectory : tree.node? location = some .directory)
    (nonempty : name ≠ []) (notDots : isDots name = false)
    (short : Path.isTooLongName name = false)
    (present : (tree.node? (location ++ [name])).isSome = true) (rest : List Text) :
    tree.walk location (name :: rest) = tree.walk (location ++ [name]) rest := by
  rw [isDots, Bool.or_eq_false_iff, beq_eq_false_iff_ne, beq_eq_false_iff_ne] at notDots
  obtain ⟨notSame, notAbove⟩ := notDots
  have moves : ¬Path.isIdle name = true := by simp [Path.isIdle, nonempty, notSame]
  rw [walk, if_pos isDirectory, if_neg moves, if_neg notAbove, if_neg (by simp [short]),
    if_pos present]

theorem exists_target_of_opening {fixed : IoError} {path : Text} {opening : Opening}
    (opened : tree.opening fixed path = .ok opening) :
    refusal? path = none ∧ isDots opening.name = false ∧
      Path.isTooLongName opening.name = false ∧
      ∃ before, Path.target? path = some ⟨before, opening.name, opening.slashed⟩ ∧
        tree.walk (tree.startOf path) before = .ok opening.directory ∧
        tree.node? opening.directory = some .directory := by
  unfold FileTree.opening at opened
  split at opened
  · cases opened
  · rename_i accepted
    split at opened
    · cases opened
    · rename_i target found
      cases way : tree.walk (tree.startOf path) (target.before ++ [['.']]) with
      | error error =>
          rw [way] at opened
          cases opened
      | ok directory =>
          rw [way] at opened
          simp only [Except.bind] at opened
          split at opened
          · cases opened
          · rename_i notDots
            split at opened
            · cases opened
            · rename_i short
              cases opened
              exact ⟨accepted, Bool.eq_false_of_not_eq_true notDots,
                Bool.eq_false_of_not_eq_true short, target.before, found,
                walk_append_dot_eq_ok_iff.mp way⟩

/-- What is put at an opening is where the path of the opening leads. -/
theorem locate_of_opening {fixed : IoError} {path : Text} {opening : Opening}
    (opened : tree.opening fixed path = .ok opening) (kept : Keeps tree after)
    (present : (after.node? opening.location).isSome = true)
    (ends : opening.slashed = false ∨ after.node? opening.location = some .directory) :
    after.locate path = .ok opening.location := by
  obtain ⟨accepted, notDots, short, before, target, way, isDirectory⟩ :=
    exists_target_of_opening opened
  obtain ⟨slashes, split, empty, nonempty, plain⟩ := Path.segments_of_target? target
  rw [locate, accepted]
  dsimp only
  rw [split, kept.startOf, walk_append, kept.walk way, Except.bind,
    walk_of_entry (kept.directory _ isDirectory) nonempty notDots short present]
  rcases ends with unslashed | last
  · rw [plain unslashed]
    rfl
  · exact walk_of_empty last empty

/-- Making a directory puts one where nothing was, and its path leads there. -/
theorem exists_of_makeDirectory {path : Text} {made : FileTree}
    (make : tree.makeDirectory path = .ok made) :
    ∃ location, tree.node? location = none ∧ made = tree.put location .directory ∧
      made.locate path = .ok location := by
  unfold makeDirectory at make
  cases opened : tree.opening .alreadyExists path with
  | error error =>
      rw [opened] at make
      cases make
  | ok opening =>
      rw [opened] at make
      simp only [Except.bind] at make
      split at make
      · cases make
      · rename_i absent
        rw [Option.not_isSome_iff_eq_none] at absent
        have keeps := keeps_put (ne_directory_of_absent absent) .directory
        have put := tree.node?_put_same (ne_nil_of_absent absent) .directory
        cases make
        exact ⟨_, absent, rfl,
          locate_of_opening opened keeps (Option.isSome_of_eq_some put) (.inr put)⟩

/-- Replacing a file puts one where no directory is, in a directory, and its path leads
there. -/
theorem exists_of_replaceFile {path : Text} {contents : List UInt8} {replaced : FileTree}
    (replace : tree.replaceFile path contents = .ok replaced) :
    ∃ directory name, tree.node? directory = some .directory ∧
      tree.node? (directory ++ [name]) ≠ some .directory ∧
      replaced = tree.put (directory ++ [name]) (.file contents) ∧
      replaced.locate path = .ok (directory ++ [name]) := by
  unfold replaceFile at replace
  cases opened : tree.opening .resourceBusy path with
  | error error =>
      rw [opened] at replace
      cases replace
  | ok opening =>
      rw [opened] at replace
      simp only [Except.bind] at replace
      split at replace
      · cases replace
      · rename_i unslashed
        rw [Bool.not_eq_true] at unslashed
        split at replace
        · cases replace
        · rename_i free
          have keeps := keeps_put free (.file contents)
          have put := tree.node?_put_same (ne_nil_of_node?_ne free) (.file contents)
          obtain ⟨-, -, -, -, -, -, isDirectory⟩ := exists_target_of_opening opened
          cases replace
          exact ⟨opening.directory, opening.name, isDirectory, free, rfl,
            locate_of_opening opened keeps (Option.isSome_of_eq_some put) (.inl unslashed)⟩

end FileTree

end Dotenv
