import SearchConfig.Link.Linker
import SearchConfig.Workspace.Action
import SearchConfig.Workspace.Shown

/-!
# Making objects

Objects are made of fields or payloads, or decoded from a dynamic value or a JSON text, and are
named.
-/

namespace SearchConfig

/-- The kinds of data that are decoded. -/
inductive Model where
  | config
  | repository
  | pattern
  | secret
  | repos
  deriving DecidableEq

/-- The kind of the objects that are made. -/
def Model.kind : Model → Kind
  | config => .config
  | repository => .repository
  | pattern => .pattern
  | secret => .secret
  | repos => .dictionary

namespace Workspace

/-- The object that a part is or becomes. -/
def settled {α : Type} (make : α → StateM Workspace Handle) (part : Decoded (Part α)) :
    Action Handle := do
  making (settle make (← accepted part))

/-- The new object of what was decoded. -/
def made {α : Type} (make : α → StateM Workspace Handle) (a : Decoded α) : Action Handle := do
  making (make (← accepted a))

/-- A value that can be looked into. -/
def opening (v : Value) : Action Value := return (← get).keyed v

/-- The member by which what is no dictionary could say what it gives by name. -/
def namesMember : Text := "keys"

/-- Makes sure that a value can give fields to a receiver by name. An object that is no dictionary
might have a member for that, but none that could be called. -/
def givesFields (receiver : Text) (fields : Value) : Action Unit := do
  let w ← get
  match w.laidOpen fields with
  | .live h =>
    match w.call (.live h) namesMember with
    | .error misuse => if !misuse.isAbsence then throw (.misused misuse)
    | .ok () => pure ()
  | _ => pure ()
  let _ ← used ((← opening fields).namedEntries receiver)

/-- Makes a new object from fields. -/
def make (name : Text) (model : Model) (fields : Value) : Action Reply := do
  givesFields model.kind.fullName fields
  let fields ← opening fields
  keep name <| ← match model with
    | .config => made addConfig (ConfigOf.decode Part.repository fields)
    | .repository => made addRepository (RepositoryOf.decode Part.secret Part.pattern fields)
    | _ => made addPattern (UrlPattern.decode fields)

/-- Decodes a dynamic value; an object of the required kind is taken as it is. -/
def validate (name : Text) (model : Model) (v : Value) : Action Reply := do
  let v ← opening v
  keep name <| ← match model with
    | .config => settled addConfig (Part.config v)
    | .repository => settled addRepository (Part.repository v)
    | .pattern => settled addPattern (Part.pattern v)
    | .secret => settled addSecret (Part.secret v)
    | .repos => made addRepos (Part.repos v)

/-- Decodes a JSON text. -/
def parse (name : Text) (model : Model) (bytes : ByteArray) : Action Reply := do
  keep name <| ← match model with
    | .config => settled addConfig ((Decoded.ofBytes Config.decode bytes).map Part.ofConfig)
    | .repository =>
      settled addRepository ((Decoded.ofBytes Repository.decode bytes).map Part.ofRepository)
    | .pattern => made addPattern (.ofBytes UrlPattern.decode bytes)
    | .secret => made addSecret (.ofBytes (fun v : Json => Schema.secret v) bytes)
    | .repos =>
      made addRepos
        ((Decoded.ofBytes Config.decodeRepos bytes).map (Entries.mapValues Part.ofRepository))

/-- What a value stands for where a payload is required: a record gives what it holds one by one,
and is not asked for what is no field of it before its fields were used. -/
def payloadValue (v : Value) : Action Value := do
  match v with
  | .live h =>
    if !h.kind.isModel then return ← now v
    let w ← get
    match ← used (Value.declaredPairs (w.entries h)) with
    | [] => return .list (← used (w.itemsOf v))
    | declared => return .list (declared.map fun (key, v) => .tuple [key, v])
  | v => now v

/-- Makes a secret of a payload. -/
def makeSecret (name : Text) (payload : Value) : Action Reply := do
  match (← payloadValue payload).payload with
  | .ok bytes => keep name (← making (addSecret ⟨bytes⟩))
  | .error fault => throw (.noPayload fault)

/-- Captures a value as a secret; a secret is taken as it is. -/
def capture (name : Text) (v : Value) : Action Reply := do
  match ← opening v with
  | .live ⟨.secret, n⟩ => keep name ⟨.secret, n⟩
  | v =>
    match Secret.capture v with
    | .ok s => keep name (← making (addSecret s))
    | .error fault => throw (.notCaptured fault)

/-! ## Linkers -/

/-- The member of a linker that is its repository. -/
def repositoryMember : Text := "_repo"

/-- The member of a linker that is its pattern. -/
def patternMember : Text := "_pattern"

/-- The member of a linker that fills templates in. -/
def expandMember : Text := "_expand"

/-- The member of a linker that finds web addresses. -/
def webAddressMember : Text := "_normalize_remote_url"

/-- The failure of a repository without a pattern, which shows the remote as it is. -/
def withoutPattern (repository : Value) : Action ActionError := do
  let url ← readMember repository RepositoryOf.urlField.inner
  let failure := Linker.withoutPattern (← used ((← get).shown url))
  if !failure.isShowable then return .longNumber
  return .failure failure [(RepositoryOf.urlField.inner, ← telling url)]

/-- Makes a linker of a repository and the pattern that it has now. -/
def makeLinker (name newName : Text) : Action Reply := do
  let repository := Value.live (← object name)
  match ← readMember repository RepositoryOf.urlPatternField.inner with
  | .null => throw (← withoutPattern repository)
  | pattern =>
    let h ← making (addRecord .linker [(repositoryMember, repository), (patternMember, pattern)])
    modify (·.bind newName h)
    return .value .null

end Workspace

end SearchConfig
