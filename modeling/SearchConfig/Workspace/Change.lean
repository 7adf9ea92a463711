import SearchConfig.Model.Defaults
import SearchConfig.Workspace.Assignment

/-!
# Changing objects

Gaps are filled with defaults, and objects are put into configurations. What counts as a gap is
asked of whatever value a member has.
-/

namespace SearchConfig

namespace Workspace

/-- Gives a member of a value the default, if it is equal to zero. -/
def fillZero (v : Value) (field : FieldName) (n : Int) : Action Unit := do
  if (← readMember v field.inner).isZero then
    assignMember (.value v) field.inner (.int n)

/-- Gives a member of a value the default, if it does not count as true. -/
def fillEmpty (v : Value) (field : FieldName) (t : Text) : Action Unit := do
  let given ← readMember v field.inner
  if !(← used ((← get).isTrue given)) then assignMember (.value v) field.inner (.text t)

/-- Gives a repository without a pattern one that suits its remote. -/
def addPatternTo (repository : Value) : Action Unit := do
  let url ← readMember repository RepositoryOf.urlField.inner
  let isAzure ← used ((← get).holds url Defaults.azureMarker)
  let p ← making (addPattern (if isAzure then Defaults.azurePattern else Defaults.pattern))
  assignMember (.value repository) RepositoryOf.urlPatternField.inner (.live p)

/-- Fills the gaps of a repository with defaults. The pattern is asked for each time that it is
needed. -/
def normalizeRepository (repository : Value) : Action Unit := do
  fillZero repository RepositoryOf.msBetweenPollField Defaults.msBetweenPoll
  fillEmpty repository RepositoryOf.vcsField Defaults.vcs
  match ← readMember repository RepositoryOf.urlPatternField.inner with
  | .null => addPatternTo repository
  | pattern =>
    fillEmpty pattern UrlPattern.baseUrlField Defaults.pattern.baseUrl
    fillEmpty pattern UrlPattern.anchorField Defaults.pattern.anchor

def normalize (name : Text) : Action Reply := do
  let v := .live (← object name)
  normalizeRepository v
  tell v

/-- Fills the gaps of a configuration with defaults. -/
def fill (name : Text) : Action Reply := do
  let v := .live (← object name)
  fillZero v ConfigOf.maxConcurrentIndexersField Defaults.maxConcurrentIndexers
  fillEmpty v ConfigOf.healthCheckUriField Defaults.healthCheckUri
  tell v

/-- Changes the entries of a dictionary that an object has under a name, wherever that is found. -/
def storeFound (h : Handle) (name : Text) (entries : List (Value × Value)) : Action Unit := do
  let w ← get
  let update (holding : Value) (store : Value → Action Unit) : Action Unit :=
    match holding with
    | .dict others => store (.dict (Value.putNamed name (.dict entries) others))
    | .live k => put k name (.dict entries)
    | _ => return
  let hidden (member : Text) : Action Unit := update (w.hidden h member) (putHidden h member)
  if (w.member? h name).isSome then put h name (.dict entries)
  else
    let isPrivate := (w.member? h Kind.privateNamesMember).any fun names =>
      (w.holds names name).toOption = some true
    hidden (if isPrivate then Kind.privateMember else Kind.extraMember)

/-- Puts an object into the repository map of a configuration under a name. -/
def addRepo (config name repo : Text) : Action Reply := do
  let h ← object config
  let part ← object repo
  match ← readMember (.live h) ConfigOf.reposField.inner with
  | .dict entries =>
    storeFound h ConfigOf.reposField.inner (Value.putNamed name (.live part) entries)
  | .live repos =>
    if repos.kind = .dictionary then put repos name (.live part)
    else throw (.misused (.noItemAssignment repos.kind.name))
  | v =>
    let isNumbered := v matches .buffer _ | .list _ | .endless _
    throw <| .misused <|
      if isNumbered then .notIndex v.typeName (Value.text name).typeName
      else .noItemAssignment v.typeName
  tell (.live h)

end Workspace

end SearchConfig
