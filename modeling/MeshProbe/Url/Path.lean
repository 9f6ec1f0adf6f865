import MeshProbe.Url.Basic
/-!
Building the path of an address segment by segment. A segment of one dot stands for its own
place, one of two dots steps back; a segment that reads as a drive letter is never stepped over.
-/

namespace MeshProbe.Url

/-- Characters that are dropped wherever they stand in an address. -/
def isIgnored (c : Char) : Bool :=
  c = '\t' || c = '\n' || c = '\r'

/-- The spellings of a dot in a path. -/
def dots : List (List Char) :=
  [['.'], ['%', '2', 'e'], ['%', '2', 'E']]

def isSingleDot (segment : List Char) : Bool :=
  dots.contains segment

def isDoubleDot (segment : List Char) : Bool :=
  dots.any fun d => d.isPrefixOf segment && dots.contains (segment.drop d.length)

/-- A letter and a colon or bar. -/
def isDrive : List Char → Bool
  | [letter, mark] => letter.isAlpha && (mark = ':' || mark = '|')
  | _ => false

/-- The segments left when the last one is stepped over. -/
def stepBack (segments : List (List Char)) : List (List Char) :=
  match segments.getLast? with
  | none => []
  | some last => if isDrive last then segments else segments.dropLast

/-- A path whose last segment comes after others. -/
def finishPath (before : List (List Char)) (last : List Char) : List (List Char) :=
  if isDoubleDot last then stepBack before ++ [[]]
  else if isSingleDot last then before ++ [[]]
  else before ++ [last]

/-- Segments that each end in a slash, after others. -/
def enterSegment (before : List (List Char)) (segment : List Char) : List (List Char) :=
  if isDoubleDot segment then stepBack before
  else if isSingleDot segment then before
  else before ++ [segment]

/-- A path of raw segments. -/
def resolvePath : List (List Char) → List (List Char) → List (List Char)
  | before, [] => finishPath before []
  | before, [last] => finishPath before last
  | before, segment :: rest => resolvePath (enterSegment before segment) rest

/-- Drops one empty segment at the end, but never the only segment. -/
def dropTrailingEmpty (path : List (List Char)) : List (List Char) :=
  if 1 < path.length && path.getLast? == some [] then path.dropLast else path

/-- What a value becomes as a segment. -/
def encodeSegment (value : List Char) : List Char :=
  Percent.encode Percent.keepsSegment (value.filter (!isIgnored ·))

/-- Adds a value as a segment. A value of one or two dots adds nothing; on the path `/` the
segment takes the place of the empty one. -/
def pushSegment (path : List (List Char)) (value : List Char) : List (List Char) :=
  if value = ['.'] ∨ value = ['.', '.'] then path
  else finishPath (if path = [[]] then [] else path) (encodeSegment value)

/-- The address with values added to its path, after dropping a trailing slash. -/
def extendPath (u : Url) (values : List (List Char)) : Url :=
  { u with path := values.foldl pushSegment (dropTrailingEmpty u.path) }

end MeshProbe.Url
