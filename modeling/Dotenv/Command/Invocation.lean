import Dotenv.Text

/-!
# Invocations

What the command line can ask for: one of four commands with its options, and the
settings that flags switch on.
-/

namespace Dotenv

/-- How the variables are printed. -/
inductive OutputFormat where
  | dotenv
  | shellExport
  | json
  deriving DecidableEq, Repr

/-- The format of a name. -/
def OutputFormat.ofName? (name : Text) : Option OutputFormat :=
  if name = "dotenv".toList then some .dotenv
  else if name = "export".toList then some .shellExport
  else if name = "json".toList then some .json
  else none

/-- A program to call with the variables as its environment. -/
structure Call where
  program : Text
  arguments : List Text
  extra : List Text
  inheritEnvironment : Bool
  dryRun : Bool
  discardOutput : Bool
  discardErrors : Bool
  deriving DecidableEq, Repr

/-- What is done with the variables. -/
inductive Task where
  | exec (call : Call)
  | read (input output : Option Text)
  | print (format : OutputFormat)
  | check
  deriving DecidableEq, Repr

/-- A command line: the patterns of the definition files, the settings that are
switched on, and what is done. -/
structure Invocation where
  patterns : List Text
  allowBlankLines : Bool
  strictReferences : Bool
  task : Task
  deriving DecidableEq, Repr

end Dotenv
