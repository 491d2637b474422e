import Dotenv.Fault
import Dotenv.Glob.Pattern

/-!
# Failures of a command

A command fails for a cause.  What the command was doing is put before it, the
outermost activity first.  Every cause has an exit code, which what stands before
it does not change.
-/

namespace Dotenv

/-- What is wrong with the arguments of a command beyond their grammar. -/
inductive CommandFault where
  | noMatches (pattern : Text)
  | invalidPattern (pattern : Text) (reason : Text)
  | unreadable (path : Text) (error : IoError)
  | invalidArgument (argument : Text)
  deriving DecidableEq, Repr

def CommandFault.message : CommandFault → Text
  | .noMatches pattern => "No files match pattern '".toList ++ pattern ++ ['\'']
  | .invalidPattern pattern reason =>
    "Invalid pattern '".toList ++ pattern ++ "': ".toList ++ reason
  | .unreadable path _ => "Failed to read ".toList ++ path
  | .invalidArgument argument =>
    "Invalid command argument '".toList ++ argument ++
      "', expected NAME or NAME=VALUE".toList

def CommandFault.exitCode : CommandFault → Nat
  | .noMatches _ => 5
  | .unreadable _ _ => 5
  | .invalidPattern _ _ => 1
  | .invalidArgument _ => 1

def Fault.exitCode : Fault → Nat
  | .malformedLine _ _ => 2
  | .undefinedReference _ _ _ => 3
  | .invalidReference _ _ => 4
  | .ioFailure _ _ => 5
  | .invalidSetting _ _ => 6

/-- Why a command failed. -/
inductive Cause where
  /-- Definitions, references or settings are faulty. -/
  | resolution (fault : Fault)
  /-- Something could not be read, made or started. -/
  | system (error : ReadError)
  /-- The arguments of the command are faulty. -/
  | arguments (fault : CommandFault)
  /-- A complete file could not be moved to its place. -/
  | replacement (error : IoError)
  /-- Anything else, told by its message alone. -/
  | other (message : Text)
  deriving DecidableEq, Repr

namespace Cause

def exitCode : Cause → Nat
  | .resolution fault => fault.exitCode
  | .system _ => 5
  | .arguments fault => fault.exitCode
  | .replacement _ => 5
  | .other _ => 1

/-- A fault as it is shown, followed by the error behind it. -/
def faultTexts (fault : Fault) : List Text :=
  match fault with
  | .ioFailure _ error => [fault.message, error.text]
  | _ => [fault.message]

/-- A cause as it is shown, followed by what is behind it. -/
def texts : Cause → List Text
  | .resolution fault => faultTexts fault
  | .system (.carried fault) => faultTexts fault
  | .system (.system error) => [error.text]
  | .arguments fault =>
    match fault with
    | .unreadable _ error => [fault.message, error.text]
    | _ => [fault.message]
  | .replacement error =>
    ["failed to persist temporary file: ".toList ++ error.text, error.text]
  | .other message => [message]

end Cause

/-- Why a command failed, and while doing what, the outermost first. -/
structure Failure where
  context : List Text
  cause : Cause
  deriving DecidableEq, Repr

namespace Failure

/-- The failure of a cause on its own. -/
def of (cause : Cause) : Failure := ⟨[], cause⟩

/-- Say what was being done when a failure happened. -/
def during (activity : Text) (failure : Failure) : Failure :=
  { failure with context := activity :: failure.context }

/-- The failure as it is shown: everything from the outermost activity to the last
cause. -/
def message (failure : Failure) : Text :=
  Text.joined ": " (failure.context ++ failure.cause.texts)

def exitCode (failure : Failure) : Nat := failure.cause.exitCode

@[simp]
theorem exitCode_during (activity : Text) (failure : Failure) :
    (failure.during activity).exitCode = failure.exitCode := rfl

end Failure

end Dotenv
