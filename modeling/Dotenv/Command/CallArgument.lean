import Dotenv.Text

/-!
# Arguments of a call

An argument for a called program is given as a name with or without a value, and
passed on as an option of that name.  A name of one letter makes a short option.
-/

namespace Dotenv

namespace CallArgument

/-- The characters that may follow in the name of an option. -/
def isLater (character : Char) : Bool :=
  character.isAlphanum || character == '_' || character == '.' || character == '-'

/-- The option of a name, and its value if that is not empty. -/
def option (name value : Text) : List Text :=
  ((if name.length == 1 then ['-'] else ['-', '-']) ++ name) ::
    if value.isEmpty then [] else [value]

/-- The arguments that `NAME`, `NAME=VALUE` or `NAME:VALUE` stands for.  The first
equals sign or colon ends the name. -/
def options? : Text → Option (List Text)
  | [] => none
  | first :: rest =>
    let name := first :: rest.takeWhile isLater
    if first.isAlpha then
      match rest.dropWhile isLater with
      | [] => some (option name [])
      | mark :: value =>
        if (mark == '=' || mark == ':') && !Text.hasLineFeed value then
          some (option name value)
        else
          none
    else
      none

end CallArgument

end Dotenv
