import Dotenv.Line
import Dotenv.Stream
import Dotenv.Text.Utf8

/-!
# Definitions of a stream

The definitions of a stream are read line by line.  Comments and allowed blanks
are passed over, and the first line that cannot be read or is malformed decides
the whole.
-/

namespace Dotenv

/-- The origin of text that came without one. -/
def inlineOrigin : Text := "<inline>".toList

namespace Definitions

/-- The definitions of lines, the first of which has a given number, before an
end that may be a failed read. -/
def ofLines (allowBlank : Bool) (origin : Text) (failure : Option IoError)
    (number : Nat) : List (List UInt8) → Except Fault (List Variable)
  | [] =>
    match failure with
    | none => .ok []
    | some error => .error (.ioFailure origin error)
  | line :: rest =>
    match Utf8.decode (Stream.withoutTerminator line) with
    | .error _ => .error (.ioFailure origin .notUtf8)
    | .ok text =>
      match Line.classify allowBlank text with
      | .definition entry =>
        (ofLines allowBlank origin failure (number + 1) rest).map (entry :: ·)
      | .comment | .blank => ofLines allowBlank origin failure (number + 1) rest
      | .malformed => .error (.malformedLine origin number)

def ofStream (allowBlank : Bool) (origin : Text) (stream : Stream) :
    Except Fault (List Variable) :=
  let transcript := stream.transcript
  ofLines allowBlank origin transcript.failure 1 transcript.lines

/-- The definitions of a text without an origin of its own. -/
def ofText (allowBlank : Bool) (text : Text) : Except Fault (List Variable) :=
  ofStream allowBlank inlineOrigin (.ofBytes (Utf8.encode text))

end Definitions

end Dotenv
