import Dotenv.Command.Run
import Dotenv.Command.Usage

/-!
# The program

The program reads its arguments, its settings variables, its standard input and what lies
along the paths that it is given, runs the command, and writes what the command left.
Nothing is decided here.  Other programs are started by a launcher that it is given; that
of `main` says that it starts none.
-/

namespace Dotenv

namespace Program

/-- The paths and patterns that an invocation names. -/
def namedPaths (invocation : Invocation) : List Text :=
  match invocation.task with
  | .read input output => invocation.patterns ++ input.toList ++ output.toList
  | _ => invocation.patterns

def pathOf (location : Location) : String := String.ofList ('/' :: Path.ofSegments location)

/-- What is at a location, if it can be looked at. -/
def nodeAt (location : Location) : IO (Option Node) := do
  let path := (← IO.currentDir).join (pathOf location)
  match (← path.metadata.toBaseIO) with
  | .error _ => return none
  | .ok found =>
    if found.type == .dir then
      return some .directory
    else if found.type == .file then
      match (← (IO.FS.readBinFile path).toBaseIO) with
      | .ok contents => return some (.file contents.toList)
      | .error _ => return none
    else
      return none

/-- Whether a segment of a pattern can stand for several names. -/
def isWild (segment : Text) : Bool := segment.any fun character => "*?[".toList.contains character

/-- The nodes that segments lead past from a location, in at most so many steps.  Where a
segment can stand for several names, all of the directory is taken.  Two stars go into every
directory but those behind links. -/
def nodesAlong : Nat → Location → List Text → IO (List (Location × Node))
  | 0, _, _ => return []
  | steps + 1, location, segments => do
    match (← nodeAt location), segments with
    | none, _ => return []
    | some .directory, segment :: rest =>
      let later ←
        if Path.isIdle segment then
          nodesAlong steps location rest
        else if segment = ['.', '.'] then
          nodesAlong steps location.dropLast rest
        else if !isWild segment then
          nodesAlong steps (location ++ [segment]) rest
        else do
          let children ← ((← IO.currentDir).join (pathOf location)).readDir
          let below ← children.toList.mapM fun child => do
            let name := child.fileName.toList
            if segment != ['*', '*'] then
              nodesAlong steps (location ++ [name]) rest
            else if (← child.path.symlinkMetadata).type == .symlink then
              nodesAlong steps (location ++ [name]) []
            else
              nodesAlong steps (location ++ [name]) segments
          let here ← if segment = ['*', '*'] then nodesAlong steps location rest else pure []
          return here ++ below.flatten
      return (location, .directory) :: later
    | some node, _ => return [(location, node)]

/-- As many steps as a path can have segments. -/
def stepLimit : Nat := 4096

/-- The tree of the system as far as an invocation can reach. -/
def treeFor (invocation : Invocation) : IO FileTree := do
  let path := (← IO.currentDir).toString.toList
  let working := (Path.segments path).filter fun segment => !Path.isIdle segment
  let bare : FileTree := { FileTree.empty with working := working }
  let here ← nodesAlong stepLimit [] working
  let along ← (namedPaths invocation).mapM fun path =>
    nodesAlong stepLimit (bare.startOf path) (Path.segments path)
  return (here ++ along.flatten).foldl (fun tree node => tree.put node.1 node.2) bare

/-- The variables of the process that settings are taken from. -/
def settingsVariables : IO Environment := do
  let names := [Settings.allowBlankLinesName, Settings.strictReferencesName]
  let found ← names.mapM fun name => do
    let value ← IO.getEnv (String.ofList name)
    return value.map fun text => (name, Utf8.encode text.toList)
  return found.filterMap id

/-- All bytes of a stream. -/
partial def readAll (stream : IO.FS.Stream) : IO (List UInt8) := do
  let bytes ← stream.read 65536
  if bytes.isEmpty then
    return []
  else
    return bytes.toList ++ (← readAll stream)

/-- The bytes of standard input, where a task reads them. -/
def inputFor (task : Task) : IO (List UInt8) := do
  match task with
  | .read none _ => readAll (← IO.getStdin)
  | _ => return []

/-- Write the nodes of a tree that another one does not hold.  A file is moved to its
place when it is complete. -/
def writeChanges (before after : FileTree) : IO Unit := do
  for entry in after.nodes.entries do
    if before.node? entry.1 ≠ some entry.2 then
      let path := pathOf entry.1
      match entry.2 with
      | .directory => IO.FS.createDir path
      | .file contents =>
        let unfinished := path ++ ".unfinished"
        IO.FS.writeBinFile unfinished contents.toByteArray
        IO.FS.rename unfinished path

/-- What is told of a command line that leads to no invocation. -/
def usageText : UsageError → String
  | .help | .helpForMissing =>
    "usage: dotenv [--allow-blank-lines] [--strict-references] [-v]\n" ++
      "  exec -e GLOB [-a NAME=VALUE] [--inherit-env] [--dry-run] COMMAND [ARGS]\n" ++
      "  read -e GLOB [-i FILE] [-o FILE]\n" ++
      "  print -e GLOB [--format dotenv|export|json]\n" ++
      "  check -e GLOB"
  | .version => "dotenv 0.1.0"
  | .missingArgument => "error: a required argument is missing"
  | .missingSubcommand => "error: a command is missing"
  | .invalidSubcommand => "error: there is no such command"
  | .unknownArgument => "error: there is no such argument"
  | .invalidValue => "error: a value is missing or invalid"
  | .argumentConflict => "error: an argument is given twice"
  | .tooManyValues => "error: a flag has no value"

/-- The launcher that starts no programs and says so. -/
def startsNone : Launcher := fun _ =>
  .error ⟨.other, "starting programs is not supported".toList⟩

/-- Run an invocation with what starts programs. -/
def run (launcher : Launcher) (invocation : Invocation) : IO UInt32 := do
  let tree ← treeFor invocation
  let world := World.standard tree (← settingsVariables) (← inputFor invocation.task) launcher
  let outcome := Command.run world invocation
  writeChanges tree outcome.tree
  (← IO.getStdout).write outcome.output.toByteArray
  match outcome.result with
  | .ok _ => pure ()
  | .error failure => IO.eprintln ("Error: " ++ String.ofList failure.message)
  return UInt32.ofNat outcome.exitCode

end Program

end Dotenv

/-- Run the program with its arguments. -/
def main (arguments : List String) : IO UInt32 := do
  match Dotenv.Usage.read (arguments.map String.toList) with
  | .ok invocation => Dotenv.Program.run Dotenv.Program.startsNone invocation
  | .error error =>
    let text := Dotenv.Program.usageText error
    if error.exitCode = 0 then IO.println text else IO.eprintln text
    return UInt32.ofNat error.exitCode
