import Dotenv.Command.Invocation

/-!
# Reading a command line

Arguments are flags, options with a value, and the program with the arguments
that are passed on to it.  An option whose value is the next argument waits for
it, and is looked at only when the next flag, option or program is accepted: an
argument that is not accepted is reported first.
-/

namespace Dotenv

/-- Why a command line does not lead to an invocation. -/
inductive UsageError where
  | missingArgument
  | missingSubcommand
  | invalidSubcommand
  | unknownArgument
  | invalidValue
  | argumentConflict
  | tooManyValues
  | help
  | helpForMissing
  | version
  deriving DecidableEq, Repr

def UsageError.exitCode : UsageError → Nat
  | .help => 0
  | .version => 0
  | _ => 2

namespace Usage

inductive Subcommand where
  | exec
  | read
  | print
  | check
  deriving DecidableEq, Repr

/-- The command of a name. -/
def Subcommand.ofName? (name : Text) : Option Subcommand :=
  if name = "exec".toList then some .exec
  else if name = "read".toList then some .read
  else if name = "print".toList then some .print
  else if name = "check".toList then some .check
  else none

/-- The word that asks for help on a command. -/
def helpWord : Text := "help".toList

/-- Where an argument stands: before the command or after it. -/
inductive Scope where
  | outer
  | within (subcommand : Subcommand)
  deriving DecidableEq, Repr

inductive Flag where
  | allowBlankLines
  | strictReferences
  | verbose
  | help
  | version
  | inheritEnvironment
  | dryRun
  | discardOutput
  | discardErrors
  deriving DecidableEq, Repr

inductive Parameter where
  | pattern
  | argument
  | input
  | output
  | format
  deriving DecidableEq, Repr

/-- A flag or an option. -/
inductive Switch where
  | flag (flag : Flag)
  | parameter (parameter : Parameter)
  deriving DecidableEq, Repr

/-- The switches that are accepted everywhere, by their long names. -/
def commonSwitches : List (Text × Switch) := [
  ("allow-blank-lines".toList, .flag .allowBlankLines),
  ("strict-references".toList, .flag .strictReferences),
  ("verbose".toList, .flag .verbose),
  ("help".toList, .flag .help)]

/-- The switches of a scope, by their long names. -/
def Scope.longSwitches : Scope → List (Text × Switch)
  | .outer => ("version".toList, .flag .version) :: commonSwitches
  | .within .exec =>
    [("env".toList, .parameter .pattern),
      ("arg".toList, .parameter .argument),
      ("inherit-env".toList, .flag .inheritEnvironment),
      ("dry-run".toList, .flag .dryRun),
      ("no-stdout".toList, .flag .discardOutput),
      ("no-stderr".toList, .flag .discardErrors)] ++ commonSwitches
  | .within .read =>
    [("env".toList, .parameter .pattern),
      ("input".toList, .parameter .input),
      ("output".toList, .parameter .output)] ++ commonSwitches
  | .within .print =>
    [("env".toList, .parameter .pattern),
      ("format".toList, .parameter .format)] ++ commonSwitches
  | .within .check => ("env".toList, .parameter .pattern) :: commonSwitches

/-- The switches of a scope, by their letters. -/
def Scope.shortSwitches : Scope → List (Char × Switch)
  | .outer => [('V', .flag .version), ('v', .flag .verbose), ('h', .flag .help)]
  | .within subcommand =>
    (match subcommand with
      | .exec => [('a', .parameter .argument)]
      | .read => [('i', .parameter .input), ('o', .parameter .output)]
      | .print => []
      | .check => []) ++
    [('e', .parameter .pattern), ('v', .flag .verbose), ('h', .flag .help)]

/-- An option that is given, with its value once that is known. -/
structure Pending where
  parameter : Parameter
  value : Option Text
  deriving DecidableEq, Repr

/-- What the arguments of one scope say so far. -/
structure Given where
  flags : List Flag
  values : List (Parameter × Text)
  pending : Option Pending
  program : Option Text
  extra : List Text
  verbatim : Bool
  deriving DecidableEq, Repr

/-- How an argument is written. -/
inductive Form where
  /-- The two hyphens after which everything is taken verbatim. -/
  | separator
  | long (name : Text) (value : Option Text)
  | short (letters : Text)
  | plain
  deriving DecidableEq, Repr

/-- The form of an argument. -/
def Form.of : Text → Form
  | ['-', '-'] => .separator
  | '-' :: '-' :: rest =>
    .long (rest.takeWhile (· != '='))
      (match rest.dropWhile (· != '=') with
        | [] => none
        | _ :: value => some value)
  | '-' :: first :: rest => .short (first :: rest)
  | _ => .plain

/-- Whether a flag can be given more than once. -/
def Flag.isRepeatable : Flag → Bool
  | .verbose => true
  | _ => false

/-- Whether an option can be given more than once. -/
def Parameter.isRepeatable : Parameter → Bool
  | .pattern => true
  | .argument => true
  | _ => false

/-- Whether an option takes a value. -/
def Parameter.accepts : Parameter → Text → Bool
  | .input, value => !value.isEmpty
  | .output, value => !value.isEmpty
  | .format, value => (OutputFormat.ofName? value).isSome
  | _, _ => true

namespace Given

def nothing : Given := ⟨[], [], none, none, [], false⟩

def has (given : Given) (flag : Flag) : Bool := given.flags.contains flag

def valuesOf (given : Given) (parameter : Parameter) : List Text :=
  given.values.filterMap fun entry => if entry.1 = parameter then some entry.2 else none

/-- Take over an option with its value. -/
def assign (given : Given) (parameter : Parameter) (value : Text) :
    Except UsageError Given :=
  if !parameter.isRepeatable && !(given.valuesOf parameter).isEmpty then
    .error .argumentConflict
  else if parameter.accepts value then
    .ok { given with values := given.values ++ [(parameter, value)] }
  else
    .error .invalidValue

/-- Take over the option that waits. -/
def settle (given : Given) : Except UsageError Given :=
  match given.pending with
  | none => .ok given
  | some ⟨_, none⟩ => .error .invalidValue
  | some ⟨parameter, some value⟩ => { given with pending := none }.assign parameter value

/-- Take over a flag. -/
def raise (given : Given) : Flag → Except UsageError Given
  | .help => .error .help
  | .version => .error .version
  | flag =>
    if given.has flag && !flag.isRepeatable then
      .error .argumentConflict
    else
      .ok { given with flags := flag :: given.flags }

/-- Take over a switch that may have a value attached. -/
def accept (given : Given) (switch : Switch) (attached : Option Text) :
    Except UsageError Given :=
  match switch, attached with
  | .flag _, some _ => .error .tooManyValues
  | .flag flag, none => given.settle.bind fun settled => settled.raise flag
  | .parameter parameter, some value =>
    given.settle.bind fun settled => settled.assign parameter value
  | .parameter parameter, none =>
    given.settle.map fun settled => { settled with pending := some ⟨parameter, none⟩ }

/-- Take over the letters of a cluster.  What follows the letter of an option in
the cluster is its value. -/
def acceptLetters (scope : Scope) (given : Given) : Text → Except UsageError Given
  | [] => .ok given
  | letter :: rest =>
    match scope.shortSwitches.lookup letter with
    | none => .error .unknownArgument
    | some (.flag flag) =>
      (given.accept (.flag flag) none).bind fun accepted => acceptLetters scope accepted rest
    | some (.parameter parameter) =>
      match rest with
      | [] => given.accept (.parameter parameter) none
      | '=' :: value => given.accept (.parameter parameter) (some value)
      | value => given.accept (.parameter parameter) (some value)

/-- Whether an argument that looks like an option can be one for the program. -/
def passesOptions (scope : Scope) (given : Given) : Bool :=
  scope == .within .exec && given.program.isSome

/-- Take over an argument that is no switch: the program, or an argument that is
passed on to it, after which all others are. -/
def acceptPlain (scope : Scope) (given : Given) (argument : Text) :
    Except UsageError Given :=
  match scope with
  | .within .exec =>
    given.settle.map fun settled =>
      match settled.program with
      | none => { settled with program := some argument }
      | some _ => { settled with extra := settled.extra ++ [argument], verbatim := true }
  | _ => .error .unknownArgument

/-- Take over an argument as the value of the option that waits for one, or else
as a plain argument. -/
def acceptValue (scope : Scope) (given : Given) (argument : Text) :
    Except UsageError Given :=
  match given.pending with
  | some ⟨parameter, none⟩ => .ok { given with pending := some ⟨parameter, some argument⟩ }
  | _ => given.acceptPlain scope argument

def acceptArgument (scope : Scope) (given : Given) (argument : Text) :
    Except UsageError Given :=
  if given.verbatim then
    given.acceptPlain scope argument
  else
    match Form.of argument with
    | .separator => .ok { given with verbatim := true }
    | .long name attached =>
      match scope.longSwitches.lookup name with
      | some switch => given.accept switch attached
      | none =>
        if given.passesOptions scope then
          given.acceptValue scope argument
        else
          .error .unknownArgument
    | .short letters =>
      if given.passesOptions scope &&
          letters.any fun letter => (scope.shortSwitches.lookup letter).isNone then
        given.acceptValue scope argument
      else
        given.acceptLetters scope letters
    | .plain => given.acceptValue scope argument

def acceptAll (scope : Scope) (given : Given) : List Text → Except UsageError Given
  | [] => given.settle
  | argument :: rest =>
    (given.acceptArgument scope argument).bind fun accepted =>
      acceptAll scope accepted rest

/-- The call that is asked for, if a program is given. -/
def call? (given : Given) : Option Call :=
  given.program.map fun program => {
    program := program
    arguments := given.valuesOf .argument
    extra := given.extra
    inheritEnvironment := given.has .inheritEnvironment
    dryRun := given.has .dryRun
    discardOutput := given.has .discardOutput
    discardErrors := given.has .discardErrors }

/-- The task that is asked for, if nothing is missing for it. -/
def task? (given : Given) : Subcommand → Option Task
  | .exec => given.call?.map .exec
  | .read => some (.read (given.valuesOf .input).head? (given.valuesOf .output).head?)
  | .print =>
    some (.print (((given.valuesOf .format).head?.bind OutputFormat.ofName?).getD .dotenv))
  | .check => some .check

end Given

/-- The invocation of a command, from what is given before and after its name. -/
def invocation (outer inner : Given) (subcommand : Subcommand) :
    Except UsageError Invocation :=
  match inner.task? subcommand with
  | none => .error .missingArgument
  | some task =>
    if (inner.valuesOf .pattern).isEmpty then
      .error .missingArgument
    else
      .ok {
        patterns := inner.valuesOf .pattern
        allowBlankLines := outer.has .allowBlankLines || inner.has .allowBlankLines
        strictReferences := outer.has .strictReferences || inner.has .strictReferences
        task := task }

/-- The answer to a request for help on something. -/
def helpOn : List Text → UsageError
  | [] => .help
  | [topic] =>
    if (Subcommand.ofName? topic).isSome || topic = helpWord then .help
    else .invalidSubcommand
  | _ => .invalidSubcommand

/-- The error of an argument before the command that names none. -/
def unexpected (given : Given) (argument : Text) : UsageError :=
  if given.verbatim && ((Subcommand.ofName? argument).isSome || argument = helpWord) then
    .unknownArgument
  else
    .invalidSubcommand

/-- Read a command line on, after what is given before the command. -/
def readFrom (given : Given) : List Text → Except UsageError Invocation
  | [] =>
    if given.flags.isEmpty then
      .error .helpForMissing
    else
      .error .missingSubcommand
  | argument :: rest =>
    match Subcommand.ofName? argument, given.verbatim with
    | some subcommand, false =>
      (Given.nothing.acceptAll (.within subcommand) rest).bind fun inner =>
        invocation given inner subcommand
    | _, _ =>
      if argument = helpWord && !given.verbatim then
        .error (helpOn rest)
      else
        match given.verbatim, Form.of argument with
        | true, _ => .error (unexpected given argument)
        | false, .plain => .error (unexpected given argument)
        | false, _ =>
          (given.acceptArgument .outer argument).bind fun accepted => readFrom accepted rest

def read (arguments : List Text) : Except UsageError Invocation :=
  readFrom .nothing arguments

end Usage

end Dotenv
