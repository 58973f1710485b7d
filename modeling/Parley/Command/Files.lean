import Parley.Text.Search

/-! # Files

    The program reads a file as a whole.  What is at a path is found by walking along its names, as
    long as there are directories to walk through.  The files in the present directory are known
    with their paths; outside of it nothing is known but the directories above it.
-/

namespace Parley.Command

/-- What is at a path. -/
inductive FileState
  | file (text : String)
  /-- A file that cannot be read. -/
  | unreadable (reason : String)
  | directory
  | missing
  /-- The path goes on behind a file. -/
  | notDirectory
  /-- The path, or a name on it, is too long. -/
  | nameTooLong
  deriving DecidableEq, Repr, Inhabited

namespace FileState

/-- Whether a file is at the path. -/
def isFile : FileState → Bool
  | .file _ | .unreadable _ => true
  | _ => false

/-- The text of the file, or the reason why there is none. -/
def content : FileState → Except String String
  | .file text => .ok text
  | .unreadable reason => .error reason
  | .directory => .error "Is a directory (os error 21)"
  | .missing => .error "No such file or directory (os error 2)"
  | .notDirectory => .error "Not a directory (os error 20)"
  | .nameTooLong => .error "File name too long (os error 36)"

end FileState

/-- The most bytes of a path. -/
def maxPathLength : Nat := 4095

/-- The most bytes of a name on a path. -/
def maxNameLength : Nat := 255

/-- Files, each given with the names on its path. -/
abbrev Files := List (List String × String)

/-- Where a walk along a path has come to: a directory outside the present one, or what has the
    given names inside it. -/
inductive Place
  | outside
  | inside (names : List String)
  deriving DecidableEq, Repr, Inhabited

namespace Place

/-- What is at a place. -/
def state (files : Files) : Place → FileState
  | .outside => .directory
  | .inside names =>
    match files.lookup names with
    | some text => .file text
    | none =>
      if names.isEmpty || files.any fun (file, _) => names.isPrefixOf file then .directory
      else .missing

/-- The directory above a directory. -/
def above : Place → Place
  | .inside (name :: names) => .inside (name :: names).dropLast
  | .inside [] | .outside => .outside

/-- What is called `name` in a directory, if that is known. -/
def below? (name : String) : Place → Option Place
  | .inside names => some (.inside (names ++ [name]))
  | .outside => none

end Place

/-- What a walk from `place` on along `names` finds.  An empty name and a point stand for the
    directory itself, and two points for the one above it. -/
def walk (files : Files) : (names : List String) → Place → FileState
  | [], place => place.state files
  | name :: rest, place =>
    match place.state files with
    | .directory =>
      if name = "" || name = "." then walk files rest place
      else if name = ".." then walk files rest place.above
      else if maxNameLength < name.utf8ByteSize then .nameTooLong
      else
        match place.below? name with
        | some place => walk files rest place
        | none => .missing
    | .file _ | .unreadable _ => .notDirectory
    | other => other

/-- The parts of a path between its slashes. -/
def pathParts (path : String) : List String :=
  (Text.splitOn ['/'] path.toList).map String.ofList

/-- What is at a path if `files` are all there is, each given with its own path. -/
def fileAmong (files : List (String × String)) (path : String) : FileState :=
  let files := files.map fun (path, text) =>
    ((pathParts path).filter fun name => name ≠ "" && name ≠ ".", text)
  if path.isEmpty then .missing
  else if maxPathLength < path.utf8ByteSize then .nameTooLong
  else walk files (pathParts path) (if path.startsWith "/" then .outside else .inside [])

end Parley.Command
