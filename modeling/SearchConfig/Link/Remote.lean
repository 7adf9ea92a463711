import SearchConfig.Text.Search

/-!
# Remotes

A repository is cloned from a remote and browsed at a web address. The web address of a remote is
the remote itself without the ending `.git`, and a remote in the form `git@host:path` names the
host and the path of the address. A line break at the very end does not hide the ending.
-/

namespace SearchConfig.Remote

def newline : CodePoint := .scalar '\n'

/-- The remote without the ending `.git`, which may stand before a final line break. -/
def withoutEnding (remote : Text) : Text :=
  match remote.dropEnding? ".git" with
  | some t => t
  | none =>
    match remote.dropEnding? ".git\n" with
    | some t => t ++ [newline]
    | none => remote

/-- The host and the path of a remote in the form `git@host:path`. The path ends with the line. -/
def hostAndPath? (remote : Text) : Option (Text × Text) :=
  match remote.dropBeginning? "git@" with
  | none => none
  | some t =>
    let host := t.takeWhile (· != .scalar ':')
    let path := (t.drop (host.length + 1)).takeWhile (· != newline)
    if host.isEmpty || path.isEmpty then none else some (host, path)

/-- The web address of a remote. -/
def webAddress (remote : Text) : Text :=
  let remote := withoutEnding remote
  match hostAndPath? remote with
  | some (host, path) => "https://" ++ host ++ "/" ++ path
  | none => remote

end SearchConfig.Remote
