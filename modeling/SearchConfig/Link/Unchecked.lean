import SearchConfig.Link.Linker

/-!
# Links from unchecked values

The fields from which a link is made may have been given any values. Templates, remotes and what is
filled in must be texts; a line is whatever it is shown as.
-/

namespace SearchConfig.Value

/-- The text of a template. -/
def template : Value → Except Misuse Text
  | text t => .ok t
  | bytes _ => .error .textInBytes
  | buffer _ => .error .textInBytes
  | v => .error (.noMember v.typeName "replace")

/-- A value that is filled in. -/
def filling : Text × Value → Except Misuse (Text × Text)
  | (name, text t) => .ok (name, t)
  | (_, null) => .error (.notReplacement null.display)
  | (_, v) => .error (.notReplacement v.typeName)

/-- Fills in the values of the names in turn. -/
def expand (v : Value) (values : List (Text × Value)) : Except Misuse Text := do
  let t ← v.template
  return Template.expand t (← values.mapM filling)

/-- The name of the template among the values. -/
def templateName : Text := "template"

/-- Fills in the values of the names in turn, none of which may be that of the template. Without
values anything stays as it is. -/
def expandNamed (v : Value) (values : List (Text × Value)) : Except Misuse Value :=
  if values.any fun (name, _) => name = templateName then
    .error (.givenTwice "URLResolver._expand()" templateName)
  else if values.isEmpty then .ok v
  else (v.expand values).map text

/-- The web address of a remote. -/
def webAddress : Value → Except Misuse Text
  | text t => .ok (Remote.webAddress t)
  | bytes _ => .error .bytesForText
  | buffer _ => .error .bytesForText
  | v => .error (.notText v.typeName)

/-- The path without slashes in front. -/
def relative : Value → Except Misuse Text
  | text t => .ok (Linker.relative t)
  | bytes _ => .error .textInBytes
  | buffer _ => .error .textInBytes
  | v => .error (.noMember v.typeName "lstrip")

/-- The line as it is shown, if it can be. -/
def lineText? (v : Value) : Option Text := if v.isDisplayable then some v.shown else none

end SearchConfig.Value
