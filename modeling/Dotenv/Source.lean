import Dotenv.Definitions
import Dotenv.FileTree
import Dotenv.Text.Display

/-!
# Sources

Definitions come from a file, from text or from a stream.  Each source has an
origin that names it in faults.
-/

namespace Dotenv

/-- Where definitions come from. -/
inductive Source where
  | file (path : Text)
  | text (origin content : Text)
  | stream (origin : Text) (events : Stream)
  deriving DecidableEq, Repr

namespace Source

/-- The name of a source in faults. -/
def origin : Source → Text
  | .file path => path
  | .text origin _ => origin
  | .stream origin _ => origin

/-- The bytes of a source.  A path is opened in a file tree. -/
def events (tree : FileTree) : Source → Except IoError Stream
  | .file path => tree.openFile path
  | .text _ content => .ok (.ofBytes (Utf8.encode content))
  | .stream _ events => .ok events

def definitions (tree : FileTree) (allowBlank : Bool) (source : Source) :
    Except Fault (List Variable) :=
  match source.events tree with
  | .error error => .error (.ioFailure source.origin error)
  | .ok events => Definitions.ofStream allowBlank source.origin events

/-- What a source is, without anything of its content. -/
def description : Source → Text
  | .file path => "Path(".toList ++ Text.displayed path ++ ")".toList
  | .text origin _ =>
    "Text \x7b origin: ".toList ++ Text.displayed origin ++ " \x7d".toList
  | .stream origin _ =>
    "Reader \x7b origin: ".toList ++ Text.displayed origin ++ " \x7d".toList

end Source

end Dotenv
