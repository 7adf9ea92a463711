import SearchConfig.Files.Tree

/-!
# Opening a path

The operating system walks a path name by name. Every name needs a directory to be looked up in, a
step upwards goes to the directory above the one that the walk has really come to, and a link is
replaced by its target, at most `maxLinks` times in one walk.
-/

namespace SearchConfig

/-- Errors of the operating system. -/
inductive SystemError where
  | noSuchFile
  | isDirectory
  | notDirectory
  | linkLoop
  | nameTooLong
  deriving DecidableEq

def SystemError.message : SystemError → Text
  | noSuchFile => "No such file or directory"
  | isDirectory => "Is a directory"
  | notDirectory => "Not a directory"
  | linkLoop => "Too many levels of symbolic links"
  | nameTooLong => "File name too long"

/-- Why a path cannot be used: the system does not take it, or refuses it. -/
inductive PathError where
  | unusable (fault : PathFault)
  | system (error : SystemError)
  deriving DecidableEq

namespace Files

/-- The longest name, in bytes. -/
def maxName : Nat := 255

/-- The least number of bytes that a path may not have. -/
def pathLimit : Nat := 4096

def maxLinks : Nat := 40

/-- How far a walk comes without following a link. -/
inductive Advance where
  | arrived (place : List Text)
  | atLink (place : List Text) (target : Text) (rest : List Text)
  | failed (error : SystemError)

/-- Walks on from a place up to the next link. -/
def advance (files : Files) (place : List Text) : List Text → Advance
  | [] => .arrived place
  | name :: rest =>
    match files.at? place with
    | some (.directory entries) =>
      if Path.isIdle name then advance files place rest
      else if name = Path.above then advance files place.dropLast rest
      else if maxName < name.size then .failed .nameTooLong
      else match Entries.get? name entries with
        | none => .failed .noSuchFile
        | some (.link target) => .atLink place target rest
        | some _ => advance files (place ++ [name]) rest
    | _ => .failed .notDirectory

/-- The place from which the names of a path are walked. -/
def origin (place : List Text) (path : Text) : List Text :=
  if path.head? = some Path.slash then [] else place

/-- Walks on from a place, following at most the given number of links. -/
def follow (files : Files) : Nat → List Text → List Text → Except SystemError (List Text)
  | links, place, names =>
    match advance files place names with
    | .arrived place => .ok place
    | .failed error => .error error
    | .atLink place target rest =>
      match links with
      | 0 => .error .linkLoop
      | links + 1 => follow files links (origin place target) (target.split Path.slash ++ rest)

/-- The place that a path leads to. -/
def locate (files : Files) (path : Text) : Except PathError (List Text) :=
  match path.pathFault? with
  | some fault => .error (.unusable fault)
  | none =>
    if pathLimit ≤ path.size then .error (.system .nameTooLong)
    else
      (follow files maxLinks (origin files.workingDirectory path) (path.split Path.slash)).mapError
        .system

/-- The bytes of the file that a path leads to. -/
def read (files : Files) (path : Text) : Except PathError ByteArray := do
  let place ← files.locate path
  match files.at? place with
  | some (.file bytes) => return bytes
  | some (.directory _) => throw (.system .isDirectory)
  | _ => throw (.system .noSuchFile)

end Files

end SearchConfig
