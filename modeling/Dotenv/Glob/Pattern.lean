import Dotenv.Path

/-!
# Glob patterns

A pattern is read segment by segment.  A question mark stands for a character, a
star for any number of them, brackets for one character of a class, and a segment
of two stars for any number of directories.
-/

namespace Dotenv

/-- Why a text is no pattern. -/
inductive PatternFault where
  /-- Three or more stars stand together. -/
  | tooManyStars
  /-- Two stars stand beside something else than slashes. -/
  | starsInSegment
  /-- A bracket opens no class. -/
  | brokenClass
  deriving DecidableEq, Repr

def PatternFault.message : PatternFault → Text
  | .tooManyStars =>
    "wildcards are either regular `*` or recursive `**`".toList
  | .starsInSegment =>
    "recursive wildcards must form a single path component".toList
  | .brokenClass => "invalid range pattern".toList

/-- The characters from a first to a last one. -/
structure CharacterRange where
  first : Char
  last : Char
  deriving DecidableEq, Repr

namespace CharacterRange

def contains (range : CharacterRange) (character : Char) : Bool :=
  range.first ≤ character && character ≤ range.last

/-- The ranges of a class: two characters with a hyphen between them, or one
alone. -/
def ofMembers : Text → List CharacterRange
  | first :: '-' :: last :: rest => ⟨first, last⟩ :: ofMembers rest
  | only :: rest => ⟨only, only⟩ :: ofMembers rest
  | [] => []

end CharacterRange

/-- One element of a pattern. -/
inductive GlobToken where
  | character (character : Char)
  | anyCharacter
  | anyCharacters
  | anyDirectories
  | oneOf (ranges : List CharacterRange)
  | noneOf (ranges : List CharacterRange)
  deriving DecidableEq, Repr

namespace GlobToken

/-- Read the members of a class and its closing bracket.  The first member can be
a bracket itself. -/
def readMembers? : Text → Option (Text × Text)
  | [] => none
  | first :: rest =>
    if rest.contains ']' then
      some (first :: rest.takeWhile (· != ']'), (rest.dropWhile (· != ']')).tail)
    else
      none

/-- Read a class after its opening bracket. -/
def readClass? : Text → Option (GlobToken × Text)
  | '!' :: rest =>
    (readMembers? rest).map fun read => (.noneOf (CharacterRange.ofMembers read.1), read.2)
  | text =>
    (readMembers? text).map fun read => (.oneOf (CharacterRange.ofMembers read.1), read.2)

theorem length_lt_of_readMembers? {text : Text} {read : Text × Text}
    (found : readMembers? text = some read) : read.2.length < text.length := by
  cases text with
  | nil => cases found
  | cons first rest =>
    simp only [readMembers?, Option.ite_none_right_eq_some, Option.some.injEq] at found
    obtain ⟨_, rfl⟩ := found
    have suffix : (rest.dropWhile (· != ']')).tail <:+ rest :=
      (List.tail_suffix _).trans (List.dropWhile_suffix _)
    exact Nat.lt_succ_of_le suffix.length_le

theorem length_lt_of_readClass? {text : Text} {read : GlobToken × Text}
    (found : readClass? text = some read) : read.2.length < text.length := by
  unfold readClass? at found
  split at found
  · obtain ⟨members, inner, equal⟩ := Option.map_eq_some_iff.mp found
    cases equal
    have bound := length_lt_of_readMembers? inner
    simp only [List.length_cons]
    omega
  · obtain ⟨members, inner, equal⟩ := Option.map_eq_some_iff.mp found
    cases equal
    exact length_lt_of_readMembers? inner

/-- Read the tokens of a text that stands at the start of a segment or not. -/
def readAll (atStart : Bool) : Text → Except PatternFault (List GlobToken)
  | [] => .ok []
  | '?' :: rest => (readAll false rest).map (.anyCharacter :: ·)
  | '*' :: '*' :: '*' :: _ => .error .tooManyStars
  | '*' :: '*' :: rest =>
    if atStart then
      match rest with
      | [] => .ok [.anyDirectories]
      | '/' :: after => (readAll true after).map (.anyDirectories :: ·)
      | _ => .error .starsInSegment
    else
      .error .starsInSegment
  | '*' :: rest => (readAll false rest).map (.anyCharacters :: ·)
  | '[' :: rest =>
    match _found : readClass? rest with
    | none => .error .brokenClass
    | some (token, after) => (readAll false after).map (token :: ·)
  | first :: rest => (readAll (first == '/') rest).map (.character first :: ·)
termination_by text => text.length
decreasing_by
  all_goals simp_wf
  all_goals try omega
  have bound := length_lt_of_readClass? _found
  dsimp only at bound
  omega

end GlobToken

/-- The tokens of a segment. -/
abbrev GlobSegment := List GlobToken

namespace GlobSegment

/-- Whether a segment stands for any number of directories. -/
def isRecursive (segment : GlobSegment) : Bool := segment == [.anyDirectories]

/-- The name that a segment without wildcards stands for. -/
def literal? (segment : GlobSegment) : Option Text :=
  segment.mapM fun token =>
    match token with
    | .character character => some character
    | _ => none

/-- A text with everything that is left of it after a beginning. -/
def suffixes : Text → List Text
  | [] => [[]]
  | first :: rest => (first :: rest) :: suffixes rest

/-- Whether a name is one that tokens stand for. -/
def accepts : GlobSegment → Text → Bool
  | [], name => name.isEmpty
  | .anyCharacters :: rest, name => (suffixes name).any (accepts rest)
  | .anyDirectories :: rest, name => accepts rest name
  | .character expected :: rest, first :: name => expected == first && accepts rest name
  | .anyCharacter :: rest, _ :: name => accepts rest name
  | .oneOf ranges :: rest, first :: name =>
    ranges.any (·.contains first) && accepts rest name
  | .noneOf ranges :: rest, first :: name =>
    !ranges.any (·.contains first) && accepts rest name
  | _ :: _, [] => false

end GlobSegment

/-- A pattern: its segments, whether it starts at the root of the system, and
whether only directories are meant. -/
structure GlobPattern where
  segments : List GlobSegment
  absolute : Bool
  directoryOnly : Bool
  deriving DecidableEq, Repr

namespace GlobPattern

/-- Segments in which no two that stand for directories are neighbours. -/
def collapse : List GlobSegment → List GlobSegment
  | first :: second :: rest =>
    if first.isRecursive && second.isRecursive then
      collapse (second :: rest)
    else
      first :: collapse (second :: rest)
  | segments => segments

/-- The texts between the slashes of a pattern, without its root and without the
empty text after a slash at its end. -/
def segmentTexts (pattern : Text) : List Text :=
  let body := if Path.isAbsolute pattern then pattern.tail else pattern
  if body.isEmpty then
    [[]]
  else
    let texts := Path.segments body
    if texts.getLast? == some [] then texts.dropLast else texts

/-- Read a pattern.  All of it has to be a pattern, and each segment on its
own. -/
def read (pattern : Text) : Except PatternFault GlobPattern :=
  (GlobToken.readAll true pattern).bind fun _ =>
    ((segmentTexts pattern).mapM (GlobToken.readAll true)).map fun segments =>
      ⟨collapse segments, Path.isAbsolute pattern, pattern.getLast? == some '/'⟩

end GlobPattern

end Dotenv
