import Dotenv.Command.CallArgument
import Dotenv.Command.Failure
import Dotenv.Command.Invocation
import Dotenv.Glob
import Dotenv.Layout
import Dotenv.Merge
import Dotenv.Substitution
import Dotenv.Variable.Json

/-!
# Running a command

A command resolves the variables of the definition files that its patterns match,
and then checks, prints or applies them.  It runs in a file tree and leaves one;
nothing else of the system matters to it but its environment, its standard input
and what it can launch.  Which files a pattern matches is left to a glob, and how a
map is written as JSON to a writer.
-/

namespace Dotenv

/-- A program that is to run. -/
structure Launch where
  program : Text
  arguments : List Text
  environment : List (Text × Text)
  inheritEnvironment : Bool
  discardOutput : Bool
  discardErrors : Bool
  deriving DecidableEq, Repr

/-- What runs programs: it gives the exit code, or says why a program cannot
start. -/
abbrev Launcher := Launch → Except IoError Nat

namespace Launch

/-- The launcher of a system that has no programs.  A path that leads nowhere whatever
is there is refused for that reason. -/
def nowhere : Launcher := fun launch =>
  .error ((FileTree.refusal? launch.program).getD .notFound)

/-- The texts that a started program is given. -/
def texts (launch : Launch) : List Text :=
  launch.program :: launch.arguments ++
    launch.environment.flatMap fun entry => [entry.1, entry.2]

/-- Start a program.  None of the texts that it is given can hold a null
character. -/
def start (launcher : Launcher) (launch : Launch) : Except IoError Nat :=
  if launch.texts.any (·.contains '\x00') then
    .error ⟨.invalidInput, "nul byte found in provided data".toList⟩
  else
    launcher launch

end Launch

/-- What a command runs in.  A map of texts can always be written as JSON, so the writer gives
a text in every case. -/
structure World where
  tree : FileTree
  environment : Environment
  input : List UInt8
  launcher : Launcher
  glob : Glob
  writeJson : VariableMap → Text

/-- A world with the standard glob, where maps are written as JSON with one member a line. -/
def World.standard (tree : FileTree) (environment : Environment) (input : List UInt8)
    (launcher : Launcher) : World :=
  ⟨tree, environment, input, launcher, .standard, VariableMap.toIndentedJson⟩

/-- What a command leaves: what it wrote to standard output, the file tree, and its
exit code or why it failed. -/
structure Outcome where
  output : List UInt8
  tree : FileTree
  result : Except Failure Nat

namespace Outcome

def exitCode (outcome : Outcome) : Nat :=
  match outcome.result with
  | .ok code => code
  | .error failure => failure.exitCode

end Outcome

namespace Command

/-- The paths of matches up to the first that cannot be read, which is a fault. -/
def readablePaths : List (Except UnreadablePath Text) → Except CommandFault (List Text)
  | [] => .ok []
  | .ok path :: rest => (readablePaths rest).map (path :: ·)
  | .error unreadable :: _ => .error (.unreadable unreadable.path unreadable.error)

/-- The files that a pattern matches, of which there is at least one. -/
def filesMatching (glob : Glob) (tree : FileTree) (pattern : Text) :
    Except CommandFault (List Text) :=
  match glob tree pattern with
  | .error reason => .error (.invalidPattern pattern reason)
  | .ok found =>
    (readablePaths found).bind fun paths =>
      if paths.isEmpty then .error (.noMatches pattern) else .ok paths

/-- The files that patterns match, in the order of the patterns.  A file that two
patterns match comes twice. -/
def matchingFiles (glob : Glob) (tree : FileTree) :
    List Text → Except CommandFault (List Text)
  | [] => .ok []
  | pattern :: rest =>
    (filesMatching glob tree pattern).bind fun paths =>
      (matchingFiles glob tree rest).map (paths ++ ·)

/-- The settings of a run: those of the environment, with the flags switched
on. -/
def settings (environment : Environment) (invocation : Invocation) :
    Except Failure Settings :=
  match Settings.ofEnvironment environment with
  | .error fault =>
    .error ((Failure.of (.resolution fault)).during "Failed to read settings".toList)
  | .ok settings => .ok {
      allowBlankLines := settings.allowBlankLines || invocation.allowBlankLines
      strictReferences := settings.strictReferences || invocation.strictReferences }

/-- The variables of the files that patterns match. -/
def resolve (glob : Glob) (tree : FileTree) (settings : Settings) (patterns : List Text) :
    Except Failure VariableMap :=
  match matchingFiles glob tree patterns with
  | .error fault => .error (.of (.arguments fault))
  | .ok paths =>
    match VariableMap.ofSources settings tree (paths.map Source.file) with
    | .error fault =>
      .error ((Failure.of (.resolution fault)).during "Failed to resolve variables".toList)
    | .ok map => .ok map

/-- The text of the variables in a format. -/
def render (writeJson : VariableMap → Text) (format : OutputFormat) (map : VariableMap) : Text :=
  match format with
  | .dotenv => Layout.dotenv.renderMap map
  | .shellExport => Layout.shellExport.renderMap map
  | .json => writeJson map ++ ['\n']

def checkReport (map : VariableMap) : Text :=
  "OK: ".toList ++ Text.decimal map.size ++ " variables resolved\n".toList

def printed (tree : FileTree) (text : Text) : Outcome := ⟨Utf8.encode text, tree, .ok 0⟩

def failed (tree : FileTree) (failure : Failure) : Outcome := ⟨[], tree, .error failure⟩

/-- The arguments that a program is called with. -/
def callArguments (call : Call) : Except Failure (List Text) :=
  go call.arguments
where
  /-- The arguments that given ones stand for, before those passed on. -/
  go : List Text → Except Failure (List Text)
    | [] => .ok call.extra
    | argument :: rest =>
      match CallArgument.options? argument with
      | none => .error (.of (.arguments (.invalidArgument argument)))
      | some options => (go rest).map (options ++ ·)

def dryRunReport (launch : Launch) : Text :=
  "Command: ".toList ++ launch.program ++ " ".toList ++
    Text.joined " " launch.arguments ++
    "\nInherit environment: ".toList ++
    (if launch.inheritEnvironment then "true" else "false").toList ++
    "\nEnvironment:\n".toList ++
    launch.environment.flatMap fun entry =>
      "  ".toList ++ entry.1 ++ "=".toList ++ entry.2 ++ "\n".toList

/-- Call a program with variables as its environment. -/
def exec (world : World) (map : VariableMap) (call : Call) : Outcome :=
  match callArguments call with
  | .error failure => failed world.tree failure
  | .ok arguments =>
    let launch : Launch := {
      program := call.program
      arguments := arguments
      environment := map.programEnvironment
      inheritEnvironment := call.inheritEnvironment
      discardOutput := call.discardOutput
      discardErrors := call.discardErrors }
    if call.dryRun then
      printed world.tree (dryRunReport launch)
    else
      match launch.start world.launcher with
      | .ok code => ⟨[], world.tree, .ok code⟩
      | .error error =>
        failed world.tree ((Failure.of (.system (.system error))).during
          ("Failed to run '".toList ++ call.program ++ ['\'']))

def inputOrigin : Text := "<stdin>".toList

/-- The origin and the bytes of the text to read. -/
def openInput (world : World) : Option Text → Except Failure (Text × Stream)
  | none => .ok (inputOrigin, .ofBytes world.input)
  | some path =>
    match world.tree.openFile path with
    | .error error =>
      .error ((Failure.of (.system (.system error))).during
        ("Failed to open input ".toList ++ path))
    | .ok stream => .ok (path, stream)

/-- The directory that an output file goes to. -/
def outputDirectory (path : Text) : Text :=
  match Path.parent? path with
  | none => ['.']
  | some [] => ['.']
  | some parent => parent

/-- Substitute in a stream and write the outcome to a file.  The directory of the file
is made if need be, and the file is replaced only when the outcome is complete. -/
def readToFile (tree : FileTree) (rule : SubstitutionRule) (stream : Stream)
    (path : Text) : Outcome :=
  let directory := outputDirectory path
  let made := if directory = ['.'] then ⟨tree, none⟩ else tree.makeDirectories directory
  match made.error with
  | some error =>
    failed made.tree ((Failure.of (.system (.system error))).during
      ("Failed to create directory: ".toList ++ directory))
  | none =>
    let delivery := stream.substituteInto rule .unlimited
    match delivery.outcome with
    | .error fault => failed made.tree (.of (.resolution fault))
    | .ok _ =>
      match made.tree.replaceFile path delivery.bytes with
      | .error error =>
        failed made.tree ((Failure.of (.replacement error)).during
          ("Failed to write file: ".toList ++ path))
      | .ok replaced => ⟨[], replaced, .ok 0⟩

/-- Substitute variables in a text.  What stands before a line that fails is still
written to standard output. -/
def read (world : World) (settings : Settings) (map : VariableMap)
    (input output : Option Text) : Outcome :=
  match openInput world input with
  | .error failure => failed world.tree failure
  | .ok (origin, stream) =>
    let rule := ⟨map, settings.strictReferences, origin⟩
    match output with
    | some path => readToFile world.tree rule stream path
    | none =>
      let delivery := stream.substituteInto rule .unlimited
      match delivery.outcome with
      | .ok _ => ⟨delivery.bytes, world.tree, .ok 0⟩
      | .error fault => ⟨delivery.bytes, world.tree, .error (.of (.resolution fault))⟩

/-- Do a task with the variables. -/
def perform (world : World) (settings : Settings) (map : VariableMap) : Task → Outcome
  | .exec call => exec world map call
  | .read input output => read world settings map input output
  | .print format => printed world.tree (render world.writeJson format map)
  | .check => printed world.tree (checkReport map)

def run (world : World) (invocation : Invocation) : Outcome :=
  match settings world.environment invocation with
  | .error failure => failed world.tree failure
  | .ok settings =>
    match resolve world.glob world.tree settings invocation.patterns with
    | .error failure => failed world.tree failure
    | .ok map => perform world settings map invocation.task

end Command

end Dotenv
