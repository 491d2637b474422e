import Dotenv.Text.Utf8

/-!
# Paths

A path is text whose segments stand between slashes.  Empty segments and single
dots after the start lead nowhere and are passed over.  The length of a path and
of its segments is limited, and is counted in bytes.
-/

namespace Dotenv

namespace Path

/-- The segments between the slashes, empty ones included. -/
def segments : Text → List Text
  | [] => [[]]
  | first :: rest =>
    if first == '/' then
      [] :: segments rest
    else
      match segments rest with
      | [] => [[first]]
      | segment :: others => (first :: segment) :: others

def ofSegments (segments : List Text) : Text := Text.joined "/" segments

def isAbsolute (path : Text) : Bool := path.head? == some '/'

/-- Whether a segment leads nowhere. -/
def isIdle (segment : Text) : Bool := segment.isEmpty || segment == ['.']

/-- Whether a segment is longer than the name of a file can be. -/
def isTooLongName (segment : Text) : Bool := 255 < (Utf8.encode segment).length

def isTooLong (path : Text) : Bool := 4095 < (Utf8.encode path).length

/-- Segments without the idle ones at the end, where the first segment stays. -/
def withoutIdleEnd : List Text → List Text
  | [] => []
  | first :: rest => first :: (rest.reverse.dropWhile isIdle).reverse

/-- The path without its last segment, if it has one to lose.  A path of a single
segment loses it and becomes empty. -/
def parent? (path : Text) : Option Text :=
  match withoutIdleEnd (segments path) with
  | [] => none
  | [only] => if only.isEmpty then none else some []
  | first :: second :: rest =>
    match withoutIdleEnd (first :: (second :: rest).dropLast) with
    | [[]] => some ['/']
    | kept => some (ofSegments kept)

/-- A path and its parents up to the last that exists. -/
def ancestors (path : Text) : List Text :=
  go (segments path).length path
where
  /-- The first parents of a path. -/
  go : Nat → Text → List Text
    | 0, path => [path]
    | count + 1, path =>
      path ::
        match parent? path with
        | none => []
        | some parent => go count parent

/-- The entry of a directory that a path ends in. -/
structure Target where
  before : List Text
  name : Text
  slashed : Bool
  deriving DecidableEq, Repr

/-- The last segment of a path with the segments before it, and whether slashes
follow it. -/
def target? (path : Text) : Option Target :=
  let reversed := (segments path).reverse
  match reversed.dropWhile List.isEmpty with
  | [] => none
  | name :: before =>
    some ⟨before.reverse, name, decide (before.length + 1 < reversed.length)⟩

def join (path segment : Text) : Text :=
  if path.isEmpty || path.getLast? == some '/' then
    path ++ segment
  else
    path ++ '/' :: segment

end Path

end Dotenv
