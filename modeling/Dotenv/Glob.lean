import Dotenv.FileTree
import Dotenv.Glob.Pattern

/-!
# Files that a pattern matches

A glob finds the files of a tree that a pattern matches.  The standard one follows the
pattern through the tree segment by segment.  Its matches come in path order; what several
directories of a recursive segment offer comes in the order of those directories.
-/

namespace Dotenv

namespace FileTree

/-- Whether a path stays where it starts. -/
def staysHere (path : Text) : Bool :=
  Path.withoutIdleEnd (Path.segments path) == [['.']]

/-- A path with a name put behind it, where a path that stays here is left
out. -/
def descend (path name : Text) : Text :=
  if staysHere path then name else Path.join path name

/-- What lies below the directory at a path: the names from there, with the
node. -/
def belowPath (tree : FileTree) (path : Text) : List (Location × Node) :=
  match tree.locate path with
  | .ok location =>
    (tree.below location).map fun entry => (entry.1.drop location.length, entry.2)
  | .error _ => []

/-- The paths that a pattern with given settings accepts at its end. -/
def accept (tree : FileTree) (directoryOnly : Bool) (path : Text) : List Text :=
  if directoryOnly && !tree.isDirectory path then [] else [path]

/-- The dotted names that a segment starting with a dot stands for, behind the path
of a directory. -/
def dottedPaths (tree : FileTree) (segment : GlobSegment) (path : Text) : List Text :=
  if segment.head? == some (.character '.') && tree.isDirectory path then
    ([['.', '.'], ['.']].filter segment.accepts).map (Path.join path)
  else
    []

/-- The paths that segments lead to from a path that is there. -/
def followSegments (tree : FileTree) (directoryOnly : Bool) :
    List GlobSegment → Text → List Text
  | [], path => tree.accept directoryOnly path
  | segment :: rest, path =>
    match segment.literal? with
    | some name =>
      let next := descend path name
      if (if isDots name then tree.isDirectory path else tree.pathExists next) then
        followSegments tree directoryOnly rest next
      else
        []
    | none =>
      if segment.isRecursive then
        (tree.belowPath path).flatMap fun entry =>
          let next := entry.1.foldl descend path
          match rest with
          | [] => if entry.2 = .directory then [next] else []
          | named :: later =>
            if (entry.1.getLast?.map named.accepts).getD false then
              followSegments tree directoryOnly later next
            else
              []
      else
        (tree.dottedPaths segment path).flatMap (followSegments tree directoryOnly rest) ++
          (tree.belowPath path).flatMap fun entry =>
            match entry.1 with
            | [name] =>
              if segment.accepts name then
                followSegments tree directoryOnly rest (descend path name)
              else
                []
            | _ => []

/-- The paths that a pattern matches, in order. -/
def glob (tree : FileTree) (pattern : GlobPattern) : List Text :=
  tree.followSegments pattern.directoryOnly pattern.segments
    (if pattern.absolute then ['/'] else ['.'])

end FileTree

/-- A path that may match but cannot be looked at, with the reason. -/
structure UnreadablePath where
  path : Text
  error : IoError
  deriving DecidableEq, Repr

/-- What finds the files of a tree that a pattern matches.  It gives them in order, with the
paths that it could not look at among them, or says why the text is no pattern. -/
abbrev Glob := FileTree → Text → Except Text (List (Except UnreadablePath Text))

/-- The glob that can look at all of a tree. -/
def Glob.standard : Glob := fun tree pattern =>
  match GlobPattern.read pattern with
  | .error fault => .error fault.message
  | .ok parsed => .ok ((tree.glob parsed).map .ok)

end Dotenv
