import SearchConfig.Files.Walk

/-!
# Canonical paths

The canonical form of a path is the absolute path of the same place without links and steps
upwards. It is found name by name, as the operating system walks, but what does not exist is kept
as it is written, and a link that has been resolved once is not resolved again. A link that is met
while it is being resolved leads to itself, and then the path has no canonical form. Nor has it one
if links lead into links deeper than the process can follow them: each link inside of another one
takes a call inside of another one, and the calls of a process are limited.
-/

namespace SearchConfig

/-- A place as it is spelled, from the root or from the working directory; the parts of one that
is not absolute may begin with steps upwards. -/
structure Spot where
  absolute : Bool
  parts : List Text
  deriving DecidableEq

namespace Spot

def root : Spot := ⟨true, []⟩

def toText (s : Spot) : Text :=
  if s.absolute then Path.slash :: Path.joined s.parts else Path.joined s.parts

def down (s : Spot) (name : Text) : Spot := { s with parts := s.parts ++ [name] }

def up (s : Spot) : Spot :=
  match s.parts.getLast? with
  | none => if s.absolute then s else s.down Path.above
  | some name =>
    if name = Path.above then s.down Path.above else { s with parts := s.parts.dropLast }

/-- The place in the tree. -/
def place (files : Files) (s : Spot) : List Text :=
  if s.absolute then s.parts else Path.cleanParts (files.workingDirectory ++ s.parts)

end Spot

/-- Why a path has no canonical form. -/
inductive CanonicalError where
  | unusable (fault : PathFault)
  | endlessLinks
  | deepLinks
  deriving DecidableEq

namespace Files

/-- The links that have been met, with the spots they lead to once these are known. -/
abbrev Memo := List (Spot × Option Spot)

/-- The end of a walk: a spot without links, or a path from which a link leads back to itself. -/
inductive Resolved where
  | whole (spot : Spot)
  | endless (path : Text)

/-- The second path as seen from the first. -/
def joinPaths (first second : Text) : Text :=
  if second.head? = some Path.slash then second
  else if first.isEmpty || first.getLast? = some Path.slash then first ++ second
  else first ++ Path.slash :: second

/-- The target of the link at a spot, if there is a link. -/
def linkAt? (files : Files) (s : Spot) : Option Text :=
  if pathLimit ≤ s.toText.size then none else (files.at? (s.place files)).bind Node.target?

/-- Takes the names one by one, given how the target of a link is resolved. -/
def resolveNames (files : Files)
    (target : Memo → Spot → Text → Except CanonicalError (Memo × Resolved)) (memo : Memo)
    (spot : Spot) :
    List Text → Except CanonicalError (Memo × Resolved)
  | [] => .ok (memo, .whole spot)
  | name :: rest =>
    if Path.isIdle name then resolveNames files target memo spot rest
    else if name = Path.above then resolveNames files target memo spot.up rest
    else
      let next := spot.down name
      match name.pathFault? with
      | some fault => .error (.unusable (fault.behind (next.toText.length - name.length)))
      | none =>
        match files.linkAt? next with
        | none => resolveNames files target memo next rest
        | some path =>
          match Entries.get? next memo with
          | some (some known) => resolveNames files target memo known rest
          | some none => .ok (memo, .endless (joinPaths next.toText (Path.joined rest)))
          | none =>
            match target (Entries.put next none memo) spot path with
            | .error error => .error error
            | .ok (memo, .endless path) => .ok (memo, .endless (joinPaths path (Path.joined rest)))
            | .ok (memo, .whole found) =>
              resolveNames files target (Entries.put next (some found) memo) found rest

/-- Resolves a path as seen from a spot, with so many calls for it and for links in links. -/
def resolve (files : Files) : Nat → Memo → Spot → Text → Except CanonicalError (Memo × Resolved)
  | 0, _, _, _ => .error .deepLinks
  | depth + 1, memo, spot, path =>
    resolveNames files (resolve files depth) memo
      (if path.head? = some Path.slash then .root else spot) (path.split Path.slash)

/-- How deep links in links are followed. There is always room for as many as the operating system
follows in one walk. -/
def linkDepth (files : Files) : Nat := maxLinks + files.extraDepth

/-- The absolute path of a path that is seen from the working directory, without steps upwards. -/
def absolute (files : Files) (path : Text) : Path :=
  (Path.append ⟨.root, files.workingDirectory⟩ (Path.ofText path)).clean

/-- The canonical form of a path. -/
def canonical (files : Files) (path : Path) : Except CanonicalError Text := do
  let (_, resolved) ← resolve files (files.linkDepth + 1) [] ⟨false, []⟩ path.toText
  let final := match resolved with
    | .whole spot => (files.absolute spot.toText).toText
    | .endless path => (files.absolute path).toText
  match files.locate final with
  | .error (.unusable fault) => throw (.unusable fault)
  | .error (.system .linkLoop) => throw .endlessLinks
  | _ => return final

end Files

end SearchConfig
