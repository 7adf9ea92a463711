import SearchConfig.Link.Unchecked
import SearchConfig.Value.Order
import SearchConfig.Workspace.Comparison
import SearchConfig.Workspace.Creation

/-!
# Asking objects

Objects tell their values, are written as JSON, and linkers make links. What a linker answers
depends on its repository and its pattern as they are at that time.
-/

namespace SearchConfig

namespace Workspace

def look (name : Text) : Action Reply := do tell (.live (← object name))

/-- A flag of a repository, or what it counts as while it is unset. -/
def flag (repository : Value) (field : FieldName) (unset : Bool) : Action Value := do
  match ← readMember repository field.inner with
  | .null => return .bool unset
  | v => return v

/-- Are polling and pushing enabled? -/
def flags (name : Text) : Action Reply := do
  let v := Value.live (← object name)
  callable v "poll_updates_enabled"
  let poll ← flag v RepositoryOf.enablePollUpdatesField true
  callable v "push_updates_enabled"
  let push ← flag v RepositoryOf.enablePushUpdatesField false
  tell (.list [poll, push])

/-- The payload of a secret. -/
def payload (secret : Value) : Action Value := do
  callable secret "get_secret_value"
  readMember secret Secret.payloadMember

/-- The payload of the secret of a repository. -/
def vcsConfig (name : Text) : Action Reply := do
  let v := Value.live (← object name)
  callable v "vcs_config"
  match ← readMember v RepositoryOf.vcsConfigField.inner with
  | .null => return .value .null
  | secret => tell (← payload secret)

/-- A secret as it shows itself. -/
def inspect (name : Text) : Action Reply := do
  let payload ← payload (.live (← object name))
  let told ← telling payload
  return .inspection ⟨told, ← used (← now payload).length⟩

/-! ## Written forms -/

/-- The text of a value in the place of a form. -/
def writtenAs (form : Form) (naming : Naming) (v : Value) : Action Text := do
  match ((← get).sealed v).write naming form with
  | .ok t => return t
  | .error fault => throw (.unwritable fault)

/-- Makes sure that a record has its writer still. -/
def hasWriter (v : Value) (method routine : Text) : Action Unit := do
  callable v method
  match ← used ((← get).find (.value v) Kind.writerMember) with
  | .value writer => callable writer routine
  | _ => return

/-- The JSON text of an object. -/
def writtenText (h : Handle) (naming : Naming) : Action Text := do
  hasWriter (.live h) "model_dump_json" "to_json"
  writtenAs (.record h.kind) naming (.live h)

def dumpText (name : Text) (naming : Naming) : Action Reply := do
  return .value (.text (← writtenText (← object name) naming))

/-- The written form of an object as a value. -/
def dump (name : Text) (naming : Naming) : Action Reply := do
  let h ← object name
  hasWriter (.live h) "model_dump" "to_python"
  match ((← get).sealed (.live h)).dumped naming (.record h.kind) with
  | .ok v => tell v
  | .error fault => throw (.unreadable fault)

/-- The model that an object is of. -/
def modelOf? : Kind → Option Model
  | .config => some .config
  | .repository => some .repository
  | .pattern => some .pattern
  | _ => none

/-- Writes an object and decodes the text as a new one. -/
def roundTrip (name newName : Text) (naming : Naming) : Action Reply := do
  let h ← object name
  match modelOf? h.kind with
  | none => throw (.misused (.noTypeMember h.kind.name "model_validate_json"))
  | some model =>
    match (← writtenText h naming).encode with
    | .ok bytes => parse newName model bytes
    | .error run => throw (.unwritable (.unencodable run))

/-! ## The listing -/

/-- What a value has under a key or a number. -/
def itemAt (w : Workspace) (v key : Value) : Except Misuse Value := do
  match w.laidOpen v with
  | .dict entries =>
    let code ← w.hashCode key
    match ← Value.lookup? key.isIdentical (w.isEqual · key) entries code with
    | some v => return v
    | none => .error (.noKey (w.snapshot key).display)
  | v =>
    match v.numbered? with
    | some items => Value.item v.typeName items key
    | none => .error (.notSubscriptable v.typeName)

/-- What a value has for each of its items in the order of the items: a dictionary the value of the
key, and a list the item that the item numbers. -/
def sortedEntries (w : Workspace) (v : Value) : Except Misuse (List (Value × Value)) := do
  let keys ← Value.sorted w.sameObject (← w.itemsOf v)
  keys.foldlM (fun entries key => do w.putKey entries key (← w.itemAt v key)) []

/-- The listing of a configuration. -/
def listing (name : Text) : Action Reply := do
  let v := Value.live (← object name)
  callable v "to_json_string"
  let repos ← readMember v ConfigOf.reposField.inner
  let w ← get
  let entries ← used (w.sortedEntries repos)
  match (w.sealed (.dict entries)).write .outer (.map .repository) with
  | .ok t => return .value (.text t)
  | .error fault => throw (.unlistable entries.length fault)

/-! ## Links -/

/-- The text of a template with values filled in by a linker. -/
def fillIn (linker template : Value) (values : List (Text × Value)) : Action Text := do
  callable linker expandMember
  callable template "replace"
  used (template.expand values)

/-- The anchor of a line, which may be any value that can be shown. -/
def anchorOf (linker : Value) (line : Value) : Action Text := do
  match line with
  | .null => return []
  | line =>
    let pattern ← readMember linker patternMember
    let anchor ← readMember pattern UrlPattern.anchorField.inner
    match (← used ((← get).shown line)).lineText? with
    | some t => fillIn linker anchor [("line", .text t)]
    | none => throw .longNumber

/-- The address of a file or of a line of it. -/
def link (name : Text) (path line : Value) : Action Reply := do
  let linker := Value.live (← object name)
  callable linker "resolve"
  let anchor ← anchorOf linker line
  let pattern ← readMember linker patternMember
  let baseUrl ← readMember pattern UrlPattern.baseUrlField.inner
  let repository ← readMember linker repositoryMember
  let url ← readMember repository RepositoryOf.urlField.inner
  callable linker webAddressMember
  let remote ← used url.webAddress
  callable path "lstrip"
  let path ← used path.relative
  let values : List (Text × Value) :=
    [("url", .text remote), ("path", .text path), ("anchor", .text anchor)]
  return .value (.text (← fillIn linker baseUrl values))

end Workspace

end SearchConfig
