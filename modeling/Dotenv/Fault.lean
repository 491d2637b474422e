import Dotenv.Text

/-!
# Faults

Everything that can go wrong between a definition file and a resolved text, as
causes.  A fault names origins, positions and variable names, and never a value
or the content of a line, which may be secret.
-/

namespace Dotenv

inductive IoKind where
  | notFound
  | permissionDenied
  | alreadyExists
  | notADirectory
  | isADirectory
  | resourceBusy
  | invalidName
  | brokenPipe
  | invalidInput
  | invalidData
  | unexpectedEnd
  | timedOut
  | interrupted
  | other
  deriving DecidableEq, Repr

/-- An input or output error: its kind and what the system says of it. -/
structure IoError where
  kind : IoKind
  text : Text
  deriving DecidableEq, Repr

namespace IoError

/-- No file of the name exists. -/
def notFound : IoError := ⟨.notFound, "No such file or directory (os error 2)".toList⟩

/-- A new directory would take the place of something that exists. -/
def alreadyExists : IoError := ⟨.alreadyExists, "File exists (os error 17)".toList⟩

/-- A path leads through something that is no directory. -/
def notADirectory : IoError := ⟨.notADirectory, "Not a directory (os error 20)".toList⟩

/-- A directory is used as if it were a file. -/
def isADirectory : IoError := ⟨.isADirectory, "Is a directory (os error 21)".toList⟩

/-- A directory in use would be replaced. -/
def resourceBusy : IoError := ⟨.resourceBusy, "Device or resource busy (os error 16)".toList⟩

/-- A path, or a name on it, is longer than the system allows. -/
def nameTooLong : IoError := ⟨.invalidName, "File name too long (os error 36)".toList⟩

/-- A path holds a null character. -/
def nullInPath : IoError :=
  ⟨.invalidInput, "file name contained an unexpected NUL byte".toList⟩

/-- A line read from a definition source is no UTF-8. -/
def notUtf8 : IoError := ⟨.invalidData, "stream did not contain valid UTF-8".toList⟩

end IoError

/-- Why definitions could not be read, merged or applied. -/
inductive Fault where
  /-- A line is neither a definition nor a comment nor an allowed blank. -/
  | malformedLine (origin : Text) (line : Nat)
  /-- Names are referenced that nothing defined before, by a definition or by
  plain text. -/
  | undefinedReference (definition : Option Text) (origin : Text) (missing : List Text)
  /-- A dollar sign begins no reference where each has to. -/
  | invalidReference (line : Option Nat) (column : Nat)
  /-- An input or output error happened on an origin. -/
  | ioFailure (origin : Text) (error : IoError)
  /-- A setting has no usable value. -/
  | invalidSetting (name : Text) (reason : Text)
  deriving DecidableEq, Repr

namespace Fault

def message : Fault → Text
  | .malformedLine origin line =>
    "Malformed definition in ".toList ++ origin ++ " at line ".toList ++ Text.decimal line
  | .undefinedReference definition origin missing =>
    (match definition with
      | some name => "Variable '".toList ++ name ++ "' in ".toList
      | none => "Text in ".toList) ++
      origin ++ " references ".toList ++ Text.decimal missing.length ++
      " undefined variable(s): ".toList ++ Text.joined ", " missing
  | .invalidReference (some line) column =>
    "Invalid variable reference at line ".toList ++ Text.decimal line ++
      ", column ".toList ++ Text.decimal column
  | .invalidReference none column =>
    "Invalid variable reference at column ".toList ++ Text.decimal column
  | .ioFailure origin error =>
    "I/O failure on ".toList ++ origin ++ ": ".toList ++ error.text
  | .invalidSetting name reason =>
    "Invalid value for ".toList ++ name ++ ": ".toList ++ reason

/-- The names that were referenced but not defined. -/
def missing : Fault → List Text
  | .undefinedReference _ _ missing => missing
  | _ => []

/-- The origin of a single line of an origin. -/
def lineOrigin (origin : Text) (line : Nat) : Text :=
  origin ++ " line ".toList ++ Text.decimal line

/-- The fault of a text that is one line of a longer one. -/
def onLine (line : Nat) (origin : Text) : Fault → Fault
  | .invalidReference _ column => .invalidReference (some line) column
  | .undefinedReference definition _ missing =>
    .undefinedReference definition (lineOrigin origin line) missing
  | fault => fault

end Fault

/-- What a read of a stream under substitution can fail with: an error of the system, or
a fault that travels as one. -/
inductive ReadError where
  | system (error : IoError)
  | carried (fault : Fault)
  deriving DecidableEq, Repr

namespace ReadError

/-- The kind that a reader sees. -/
def kind : ReadError → IoKind
  | .system error => error.kind
  | .carried (.ioFailure _ error) => error.kind
  | .carried _ => .other

def message : ReadError → Text
  | .system error => error.text
  | .carried fault => fault.message

/-- The fault behind the error.  An error of the system becomes one of the
origin that is given. -/
def recover (origin : Text) : ReadError → Fault
  | .system error => .ioFailure origin error
  | .carried fault => fault

end ReadError

end Dotenv
