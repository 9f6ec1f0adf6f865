/-!
A tree of files as far as paths, reading and listing go. A path is walked name by name; links are
followed, but no more than forty of them in one walk.
-/

namespace MeshProbe

inductive FileError
  | notFound
  | denied
  | notDirectory
  | isDirectory
  | nameTooLong
  | tooManyLinks
  /-- A path with a zero character. -/
  | nulInPath
  /-- A word of a command with a zero character. -/
  | nulInCommand
  deriving DecidableEq, Repr

def FileError.message : FileError → String
  | notFound => "No such file or directory (os error 2)"
  | denied => "Permission denied (os error 13)"
  | notDirectory => "Not a directory (os error 20)"
  | isDirectory => "Is a directory (os error 21)"
  | nameTooLong => "File name too long (os error 36)"
  | tooManyLinks => "Too many levels of symbolic links (os error 40)"
  | nulInPath => "file name contained an unexpected NUL byte"
  | nulInCommand => "nul byte found in provided data"

namespace FilePath

/-- The parts of a text between slashes, the first one behind a word read in reverse. -/
def splitSlashes : List Char → List Char → List String
  | word, [] => [String.ofList word.reverse]
  | word, c :: rest =>
    if c = '/' then String.ofList word.reverse :: splitSlashes [] rest
    else splitSlashes (c :: word) rest

/-- The names of a path, with empty ones where slashes meet or end it. -/
def names (path : String) : List String := splitSlashes [] path.toList

def isAbsolute (path : String) : Bool := path.toList.head? == some '/'

/-- A path below a directory; an absolute one stands for itself. -/
def join (directory path : String) : String :=
  if isAbsolute path || directory.isEmpty then path
  else if directory.toList.getLast? = some '/' then directory ++ path
  else directory ++ "/" ++ path

def hasNul (text : String) : Bool := text.toList.contains '\x00'

end FilePath

inductive FileEntry
  | file (text : String)
  | directory
  | link (target : String)
  deriving DecidableEq, Repr

structure Files where
  /-- Every entry under the names that lead to it from the root. -/
  entries : List (List String × FileEntry)
  /-- The names that lead to the working directory. -/
  workingDirectory : List String

namespace Files

/-- The entry at the end of names that lead through no link. The root is always there. -/
def entry? (files : Files) (names : List String) : Option FileEntry :=
  if names = [] then some .directory else files.entries.lookup names

def has (files : Files) (names : List String) : Bool := (files.entry? names).isSome

/-- Adds an entry, and the directories that lead to it where they are missing. -/
def add (files : Files) (names : List String) (entry : FileEntry) : Files :=
  let missing := ((List.range names.length).map names.take).filter fun d => !files.has d
  { files with
    entries := files.entries ++ missing.map (·, .directory) ++
      if files.has names then [] else [(names, entry)] }

/-- How many links one walk follows. -/
def maxLinks : Nat := 40

def maxNameBytes : Nat := 255

def maxPathBytes : Nat := 4095

/-- Where a path starts. -/
def startOf (here : List String) (path : String) : List String :=
  if FilePath.isAbsolute path then [] else here

/-- Walks names from a directory on; `follow` goes on where a link leads. The answer leads
through no link to something that is there. -/
def walkWith (files : Files)
    (follow : List String → List String → Except FileError (List String)) :
    List String → List String → Except FileError (List String)
  | here, [] => .ok here
  | here, name :: rest =>
    if files.entry? here ≠ some .directory then .error .notDirectory
    else if name = "" ∨ name = "." then walkWith files follow here rest
    else if name = ".." then walkWith files follow here.dropLast rest
    else if maxNameBytes < name.utf8ByteSize then .error .nameTooLong
    else
      match files.entry? (here ++ [name]) with
      | none => .error .notFound
      | some (.link target) =>
        follow (startOf here target) (FilePath.names target ++ rest)
      | some _ => walkWith files follow (here ++ [name]) rest

def walk (files : Files) : Nat → List String → List String → Except FileError (List String)
  | 0 => files.walkWith fun _ _ => .error .tooManyLinks
  | links + 1 => files.walkWith (walk files links)

/-- The names that lead to what a path stands for. -/
def resolve (files : Files) (path : String) : Except FileError (List String) :=
  if FilePath.hasNul path then .error .nulInPath
  else if path.isEmpty then .error .notFound
  else if maxPathBytes < path.utf8ByteSize then .error .nameTooLong
  else
    files.walk maxLinks (startOf files.workingDirectory path) (FilePath.names path)

/-- The absolute path, free of links, of what a path stands for. -/
def canonical (files : Files) (path : String) : Except FileError String := do
  let names ← files.resolve path
  return "/" ++ "/".intercalate names

def read (files : Files) (path : String) : Except FileError String := do
  let names ← files.resolve path
  match files.entry? names with
  | some (.file text) => return text
  | _ => throw .isDirectory

def isFile (files : Files) (path : String) : Bool :=
  match files.resolve path with
  | .ok names =>
    match files.entry? names with
    | some (.file _) => true
    | _ => false
  | .error _ => false

/-- Whether a name is listed before another: names are compared from their last characters, so
that a listing does not depend on how the tree came about. -/
def listedBefore (a b : String) : Bool :=
  !List.lex b.toList.reverse a.toList.reverse fun x y => decide (x.toNat < y.toNat)

/-- The names of what stands directly below a directory. -/
def namesIn (files : Files) (directory : List String) : List String :=
  let below := files.entries.filterMap fun (names, _) =>
    if names.dropLast = directory then names.getLast? else none
  below.mergeSort listedBefore

/-- The paths of the entries of a directory, each below the path that names the directory. -/
def list (files : Files) (path : String) : Except FileError (List String) := do
  let names ← files.resolve path
  if files.entry? names ≠ some .directory then throw .notDirectory
  return (files.namesIn names).map (FilePath.join path)

end Files

end MeshProbe
