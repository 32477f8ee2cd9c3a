import KingCheck.Input.Reader
import KingCheck.Text.Lines

/-!
# The files around a session

What a session can open.  It works in a directory of its own; of the rest of the system
only what is the same everywhere is known, such as the empty device and the names of
standard input.  A path is followed name by name, and the first name that leads nowhere
decides what is wrong with it.  A directory can be opened like a file, but reading it
fails.
-/
namespace KingCheck.Session

open Text (Octets)
open Input (Reader)

/-- What the system objects to. -/
inductive PathError where
  /-- Nothing has the name. -/
  | notFound
  /-- The path goes on behind a file. -/
  | notADirectory
  /-- A directory is read. -/
  | isADirectory
  /-- A name, or the whole path, has more octets than the system takes. -/
  | tooLong
deriving DecidableEq

/-- The words of the system, with the number of the objection. -/
def PathError.text : PathError → String
  | .notFound => "No such file or directory (os error 2)"
  | .notADirectory => "Not a directory (os error 20)"
  | .isADirectory => "Is a directory (os error 21)"
  | .tooLong => "File name too long (os error 36)"

/-- The octets that a name may have. -/
def maxNameSize : Nat := 255

/-- The octets that a path may have. -/
def maxPathSize : Nat := 4095

/-- A name in a directory. -/
abbrev FileName := List Char

/-- The names that lead somewhere from the root, which is above all directories. -/
abbrev Location := List FileName

/-- The location that is written with slashes between the names. -/
def Location.ofString (s : String) : Location := Text.pieces '/' s.toList

/-- The directory of the session's own, inside the one for temporary files. -/
def Location.workdir : Location := .ofString "tmp/session"

/-- Where a path leads. -/
inductive Place where
  | directory (location : Location)
  | file (reader : Reader)
deriving DecidableEq

/-- What is known of the system. -/
structure Filesystem where
  /-- The files, and what reading one brings. -/
  files : List (Location × Reader)
  /-- The directories, beside those on the way to a file. -/
  directories : List Location
  /-- The locations that stand for others. -/
  links : List (Location × Location)

namespace Filesystem

/-- The directories that every system has. -/
def standardDirectories : List Location :=
  ["bin", "dev", "etc", "home", "lib", "opt", "proc", "root", "run", "sbin", "sys", "tmp", "usr",
    "var"].map .ofString

/-- The system around a session with some standard input and some files in its directory. -/
def around (stdin : Reader) (files : List (String × Octets)) : Filesystem where
  files :=
    (.ofString "dev/null", []) :: (.ofString "proc/self/fd/0", stdin) ::
      files.map fun (name, bytes) => (.workdir ++ .ofString name, Reader.ofOctets bytes)
  directories := .workdir :: standardDirectories
  links := [(.ofString "dev/stdin", .ofString "proc/self/fd/0"),
    (.ofString "dev/fd", .ofString "proc/self/fd"),
    (.ofString "proc/self/cwd", .workdir), (.ofString "proc/self/root", [])]

variable (system : Filesystem)

/-- What is at a location. -/
def find (location : Location) : Except PathError Place :=
  let target := (system.links.lookup location).getD location
  match system.files.lookup target with
  | some reader => .ok (.file reader)
  | none =>
    if target ∈ system.directories ∨ system.files.any fun file => target.isPrefixOf file.1 then
      .ok (.directory target)
    else .error .notFound

/-- Go on from a place to a name.  No name and a dot stay in place; two dots lead back,
but not above the root. -/
def enter (name : FileName) : Place → Except PathError Place
  | .file _ => .error .notADirectory
  | .directory location =>
    if name = [] ∨ name = ['.'] then .ok (.directory location)
    else if name = ['.', '.'] then .ok (.directory location.dropLast)
    else if maxNameSize < (Text.encode name).length then .error .tooLong
    else system.find (location ++ [name])

/-- Follow names in order. -/
def follow (place : Place) : List FileName → Except PathError Place
  | [] => .ok place
  | name :: rest =>
    match system.enter name place with
    | .ok next => follow next rest
    | .error e => .error e

/-- Find what a path leads to.  A path that starts with a slash starts at the root, and
one that ends with a slash has one more name, which is empty. -/
def resolve (path : String) : Except PathError Place :=
  if path = "" then .error .notFound
  else if maxPathSize < (Text.octets path).length then .error .tooLong
  else
    let start : Location := if path.toList.head? = some '/' then [] else .workdir
    system.follow (.directory start) (Text.pieces '/' (path.toList ++ ['/']))

/-- Open what a path leads to. -/
def openFile (path : String) : Except String Reader :=
  match system.resolve path with
  | .ok (.file reader) => .ok reader
  | .ok (.directory _) => .ok [.failure PathError.isADirectory.text]
  | .error e => .error e.text

end Filesystem
end KingCheck.Session
