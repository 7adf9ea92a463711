import SearchConfig.Failure
import SearchConfig.Link.Remote
import SearchConfig.Link.Template
import SearchConfig.Model.Repository

/-!
# Links to files

A linker knows a repository's remote and its URL pattern and makes the address at which a file, or
a line of it, is browsed. The line goes into the anchor and the anchor, the path and the web
address of the remote into the base URL.
-/

namespace SearchConfig

structure Linker where
  remote : Text
  pattern : UrlPattern
  deriving DecidableEq

namespace Linker

/-- The anchor of a line. It is empty without a line. -/
def anchorOf (pattern : UrlPattern) : Option Text → Text
  | none => []
  | some line => Template.expand pattern.anchor [("line", line)]

/-- The path without slashes in front. -/
def relative (path : Text) : Text := path.dropWhile (· == .scalar '/')

/-- The address of a file or of a line of it. -/
def linkAt (linker : Linker) (path : Text) (line : Option Text) : Text :=
  Template.expand linker.pattern.baseUrl [
    ("url", Remote.webAddress linker.remote),
    ("path", relative path),
    ("anchor", anchorOf linker.pattern line)]

/-- The address of a file or of a line of it. There is none for a line number that is too long to be
written. -/
def link? (linker : Linker) (path : Text) : Option Int → Option Text
  | none => some (linker.linkAt path none)
  | some line =>
    if Digits.isWritable line then some (linker.linkAt path (some (Text.ofInt line))) else none

/-- The failure of a repository without a URL pattern. -/
def withoutPattern (remote : Value) : Failure where
  kind := .configuration
  message := "Repository has no url-pattern"
  details := [("url", remote)]
  cause := none

/-- The linker of a repository, which must have a URL pattern. -/
def ofRepository (r : Repository) : Except Failure Linker :=
  match r.urlPattern with
  | some pattern => .ok ⟨r.url, pattern⟩
  | none => .error (withoutPattern (.text r.url))

end Linker

end SearchConfig
