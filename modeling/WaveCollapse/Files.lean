/-! # Files

A run reads its rules and settings from files and leaves its results in files. The store
maps places to what stands there. A place is a list of names from the working directory on;
one that starts with the name of the root is meant from there, and one that starts with two
dots lies above the working directory. A path is walked name by name, and every place that
is left on the way must be a directory, also where a single dot leads back to it. -/

namespace WaveCollapse

/-- Why a file could not be read or written. -/
inductive FileError where
  | notFound
  | notDirectory
  | isDirectory
  | nameTooLong
  | holdsZero
  | notText
deriving DecidableEq, Inhabited

/-- The wording of a failure. -/
def FileError.message : FileError → String
  | notFound => "No such file or directory (os error 2)"
  | notDirectory => "Not a directory (os error 20)"
  | isDirectory => "Is a directory (os error 21)"
  | nameTooLong => "File name too long (os error 36)"
  | holdsZero => "file name contained an unexpected NUL byte"
  | notText => "stream did not contain valid UTF-8"

namespace Path

/-- The name of the root of all files. -/
def root : String := "/"

/-- The name that leads to the directory around a place. -/
def above : String := ".."

/-- The name that leads back to the place itself. -/
def same : String := "."

/-- The bytes that a path must stay below. -/
def sizeLimit : Nat := 4096

/-- The most bytes that the name of an entry has. -/
def maxNameSize : Nat := 255

/-- The steps of a path; repeated slashes do not count. -/
def steps (path : String) : List String := (path.splitOn "/").filter (· ≠ "")

/-- The names on a path; steps that lead nowhere else do not count. -/
def names (path : String) : List String := (steps path).filter (· ≠ same)

/-- The last name on a path, when it names an entry of its directory. -/
def fileName? (path : String) : Option String :=
  (names path).getLast?.filter (· ≠ above)

/-- What follows the last dot of the file name; a dot in front does not count. -/
def extension? (path : String) : Option String :=
  (fileName? path).bind fun name =>
    match (name.splitOn ".").reverse with
    | [] | [_] => none
    | [_, ""] => none
    | ext :: _ => some ext

/-- Where the walk of a path starts. -/
def start (path : String) : List String := if path.startsWith "/" then [root] else []

/-- The place around a place; the root has none but itself. -/
def parent (place : List String) : List String :=
  match place.getLast? with
  | none => [above]
  | some name =>
    if name = above then place ++ [above]
    else if name = root then place
    else place.dropLast

/-- The place that a name leads to from another place. -/
def step (here : List String) (name : String) : List String :=
  if name = above then parent here else if name = same then here else here ++ [name]

/-- Every place on a path after its start. -/
def places : List String → List String → List (List String)
  | _, [] => []
  | here, name :: rest => step here name :: places (step here name) rest

end Path

/-- What stands at a place. -/
inductive Entry where
  | file (content : ByteArray)
  | directory
deriving Inhabited

/-- The entries, the most recent first. -/
structure Files where
  entries : List (List String × Entry) := []
deriving Inhabited

namespace Files

variable (f : Files)

/-- Directories that are always there: the root, the working directory and those around it. -/
def isGiven (place : List String) : Bool := place = [Path.root] || place.all (· = Path.above)

/-- What stands at a place. -/
def entryAt? (place : List String) : Option Entry :=
  if isGiven place then some .directory else f.entries.lookup place

/-- Looks for an entry in the directory around its place. -/
def lookUp (place : List String) : Except FileError (Option Entry) :=
  if place.getLast?.any (Path.maxNameSize < ·.utf8ByteSize) then .error .nameTooLong
  else .ok (f.entryAt? place)

/-- Walks names from a place. -/
def walk : List String → List String → Except FileError (List String)
  | here, [] => .ok here
  | here, name :: rest =>
    match f.lookUp here with
    | .error e => .error e
    | .ok none => .error .notFound
    | .ok (some (.file _)) => .error .notDirectory
    | .ok (some .directory) => walk (Path.step here name) rest

/-- The place that a path leads to. The empty path leads nowhere. -/
def locate (path : String) : Except FileError (List String) :=
  if path.contains '\x00' then .error .holdsZero
  else if path.isEmpty then .error .notFound
  else if Path.sizeLimit ≤ path.utf8ByteSize then .error .nameTooLong
  else f.walk (Path.start path) (Path.steps path)

/-- Whether a path can only lead to a directory, because a slash ends it. -/
def asDirectory (path : String) : Bool := path.endsWith "/"

/-- The bytes of the file that a path names. -/
def read (path : String) : Except FileError ByteArray :=
  match f.locate path with
  | .error e => .error e
  | .ok place =>
    match f.lookUp place with
    | .error e => .error e
    | .ok none => .error .notFound
    | .ok (some .directory) => .error .isDirectory
    | .ok (some (.file content)) =>
      if asDirectory path then .error .notDirectory else .ok content

/-- The text of the file that a path names. -/
def readText (path : String) : Except FileError String :=
  match f.read path with
  | .error e => .error e
  | .ok bytes =>
    match String.fromUTF8? bytes with
    | some text => .ok text
    | none => .error .notText

/-- Whether a path names a file. -/
def isFile (path : String) : Bool := (f.read path).isOk

/-- Puts a file at the place that a path names, over the one that may be there. -/
def write (path : String) (content : ByteArray) : Except FileError Files :=
  match f.locate path with
  | .error e => .error e
  | .ok place =>
    if asDirectory path then .error .isDirectory
    else
      match f.lookUp place with
      | .error e => .error e
      | .ok (some .directory) => .error .isDirectory
      | .ok _ => .ok { f with entries := (place, .file content) :: f.entries }

/-- Puts a text at the place that a path names. -/
def writeText (path text : String) : Except FileError Files := f.write path text.toUTF8

/-- The store with directories all around the place that a path names. -/
def openWay (path : String) : Files :=
  let around := (Path.places (Path.start path) (Path.names path)).dropLast
  { f with entries := around.map (·, .directory) ++ f.entries }

/-- The store with an entry at the place that a path names, whatever was around it. -/
def provide (path : String) (entry : Entry) : Files :=
  let store := f.openWay path
  match (Path.places (Path.start path) (Path.names path)).getLast? with
  | some place => { store with entries := (place, entry) :: store.entries }
  | none => store

end Files

end WaveCollapse
