import Dotenv.Path
import Dotenv.SortedMap
import Dotenv.Stream

/-!
# File trees

A file tree holds the files and directories of a system by the names that lead to them from
the root, and knows the directory that a command works in.  A path is followed segment by
segment, through directories only: from the root where it is absolute, and from the working
directory otherwise.  There are no links in a tree.
-/

namespace Dotenv

/-- What a location of a tree holds. -/
inductive Node where
  | file (contents : List UInt8)
  | directory
  deriving DecidableEq, Repr

/-- The names on the way from the root. -/
abbrev Location := List Text

/-- Files and directories in path order, and the location of the working directory. -/
structure FileTree where
  nodes : SortedMap Location Node
  working : Location
  deriving DecidableEq

namespace FileTree

/-- The tree of nothing but the root. -/
def empty : FileTree := ⟨.empty, []⟩

/-- What a location holds.  The root itself is always there. -/
def node? (tree : FileTree) : Location → Option Node
  | [] => some .directory
  | location => tree.nodes.get? location

/-- Follow segments from a location that is there.  Nothing lies above the root, so two dots
stay in it. -/
def walk (tree : FileTree) (location : Location) : List Text → Except IoError Location
  | [] => .ok location
  | segment :: rest =>
    if tree.node? location = some .directory then
      if Path.isIdle segment then
        walk tree location rest
      else if segment = ['.', '.'] then
        walk tree location.dropLast rest
      else if Path.isTooLongName segment then
        .error .nameTooLong
      else if (tree.node? (location ++ [segment])).isSome then
        walk tree (location ++ [segment]) rest
      else
        .error .notFound
    else
      .error .notADirectory

/-- Where a path starts. -/
def startOf (tree : FileTree) (path : Text) : Location :=
  if Path.isAbsolute path then [] else tree.working

/-- Why a path leads nowhere, whatever the tree holds. -/
def refusal? (path : Text) : Option IoError :=
  if path.contains '\x00' then some .nullInPath
  else if path.isEmpty then some .notFound
  else if Path.isTooLong path then some .nameTooLong
  else none

/-- The location that a path leads to. -/
def locate (tree : FileTree) (path : Text) : Except IoError Location :=
  match refusal? path with
  | some error => .error error
  | none => tree.walk (tree.startOf path) (Path.segments path)

def pathExists (tree : FileTree) (path : Text) : Bool :=
  match tree.locate path with
  | .ok _ => true
  | .error _ => false

def isDirectory (tree : FileTree) (path : Text) : Bool :=
  match tree.locate path with
  | .ok location => tree.node? location == some .directory
  | .error _ => false

/-- Open the file at a path.  A directory opens too, and fails when it is
read. -/
def openFile (tree : FileTree) (path : Text) : Except IoError Stream :=
  (tree.locate path).map fun location =>
    match tree.node? location with
    | some (.file contents) => .ofBytes contents
    | _ => [.failure .isADirectory]

/-- Put a node at a location, in place of what was there. -/
def put (tree : FileTree) (location : Location) (node : Node) : FileTree :=
  { tree with nodes := tree.nodes.insert location node }

/-- Whether a segment names a directory by its relation to another one. -/
def isDots (segment : Text) : Bool := segment == ['.'] || segment == ['.', '.']

/-- A name in a directory, at which something can be put. -/
structure Opening where
  directory : Location
  name : Text
  slashed : Bool
  deriving DecidableEq, Repr

def Opening.location (opening : Opening) : Location := opening.directory ++ [opening.name]

/-- The opening that a path ends in.  The root and the names made of dots are fixed:
nothing can be put there, which is an error of its own. -/
def opening (tree : FileTree) (fixed : IoError) (path : Text) : Except IoError Opening :=
  match refusal? path with
  | some error => .error error
  | none =>
    match Path.target? path with
    | none => .error fixed
    | some target =>
      (tree.walk (tree.startOf path) (target.before ++ [['.']])).bind fun directory =>
        if isDots target.name then .error fixed
        else if Path.isTooLongName target.name then .error .nameTooLong
        else .ok ⟨directory, target.name, target.slashed⟩

def makeDirectory (tree : FileTree) (path : Text) : Except IoError FileTree :=
  (tree.opening .alreadyExists path).bind fun opening =>
    if (tree.node? opening.location).isSome then
      .error .alreadyExists
    else
      .ok (tree.put opening.location .directory)

/-- A tree after an attempt to change it, with the error that ended the
attempt. -/
structure Attempt where
  tree : FileTree
  error : Option IoError
  deriving DecidableEq

/-- Take the directory at a path as it is if there is one, and otherwise end an
attempt to make it with an error. -/
def acceptDirectory (tree : FileTree) (path : Text) (error : IoError) : Attempt :=
  ⟨tree, if tree.isDirectory path then none else some error⟩

/-- Make a directory after its missing parents.  The path comes first, then its
parents from the inside out.  Parents that were made stay when the path cannot be
made. -/
def makeDirectoriesFrom (tree : FileTree) : List Text → Attempt
  | [] => ⟨tree, some .notFound⟩
  | path :: parents =>
    if path.isEmpty then
      ⟨tree, none⟩
    else
      match tree.makeDirectory path with
      | .ok made => ⟨made, none⟩
      | .error error =>
        if error.kind = .notFound then
          let above := makeDirectoriesFrom tree parents
          match above.error with
          | some _ => above
          | none =>
            match above.tree.makeDirectory path with
            | .ok made => ⟨made, none⟩
            | .error error => above.tree.acceptDirectory path error
        else
          tree.acceptDirectory path error

/-- Make a directory and its missing parents. -/
def makeDirectories (tree : FileTree) (path : Text) : Attempt :=
  tree.makeDirectoriesFrom (Path.ancestors path)

/-- Move a complete file to a path, in place of a file that is there. -/
def replaceFile (tree : FileTree) (path : Text) (contents : List UInt8) :
    Except IoError FileTree :=
  (tree.opening .resourceBusy path).bind fun opening =>
    if opening.slashed then
      .error .notADirectory
    else if tree.node? opening.location = some .directory then
      .error .isADirectory
    else
      .ok (tree.put opening.location (.file contents))

/-- What lies below a location, at any depth, in path order. -/
def below (tree : FileTree) (location : Location) : List (Location × Node) :=
  tree.nodes.entries.filter fun entry =>
    location.isPrefixOf entry.1 && location.length < entry.1.length

/-- What lies right below a location, in name order. -/
def children (tree : FileTree) (location : Location) : List (Location × Node) :=
  (tree.below location).filter fun entry => entry.1.length == location.length + 1

/-- Every node below the working directory with its path from there.  The path of a
directory ends in a slash. -/
def listing (tree : FileTree) : List (Text × Node) :=
  (tree.below tree.working).map fun entry =>
    let path := Path.ofSegments (entry.1.drop tree.working.length)
    match entry.2 with
    | .file contents => (path, .file contents)
    | .directory => (path ++ ['/'], .directory)

/-- The locations of the directories that a location lies in, from the outside
in, without the root. -/
def enclosing (location : Location) : List Location :=
  (List.range location.length).tail.map fun count => location.take count

/-- Put a node at a location with the directories that it lies in. -/
def plant (tree : FileTree) (location : Location) (node : Node) : FileTree :=
  ((enclosing location).foldl (fun grown outer => grown.put outer .directory) tree).put
    location node

/-- The tree of given directories and files, by their paths from a working directory. -/
def ofListing (working : Location) (directories : List Text)
    (files : List (Text × List UInt8)) : FileTree :=
  let locationOf (path : Text) : Location :=
    working ++ (Path.segments path).filter fun segment => !Path.isIdle segment
  let bare := plant { empty with working := working } working .directory
  let grown := directories.foldl
    (fun tree path => tree.plant (locationOf path) .directory) bare
  files.foldl (fun tree entry => tree.plant (locationOf entry.1) (.file entry.2)) grown

end FileTree

end Dotenv
