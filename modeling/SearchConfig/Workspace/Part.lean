import SearchConfig.Workspace.Basic

/-!
# Decoding into a workspace

A value may hold live objects. Where a part of that kind is required such an object is taken as it
is and not copied; any other value is decoded, and what comes out becomes a new object.
-/

namespace SearchConfig

/-- A part of a record: an object of the workspace, or a value that is yet to become one. -/
inductive Part (α : Type) where
  | held (h : Handle)
  | fresh (a : α)

abbrev SecretPart := Part Secret

abbrev PatternPart := Part UrlPattern

abbrev RepositoryPart := Part (RepositoryOf SecretPart PatternPart)

abbrev ConfigPart := Part (ConfigOf RepositoryPart)

namespace Part

/-- Takes an object of the kind as it is and decodes any other value. -/
def decode {α : Type} (kind : Kind) (read : Value → Decoded α) (v : Value) : Decoded (Part α) :=
  match v with
  | .live h => if h.kind = kind then .accepted (held h) else (read v).map fresh
  | v => (read v).map fresh

def secret : Value → Decoded SecretPart := decode .secret Schema.secret

def pattern : Value → Decoded PatternPart := decode .pattern UrlPattern.decode

def repository : Value → Decoded RepositoryPart :=
  decode .repository (RepositoryOf.decode secret pattern)

def config : Value → Decoded ConfigPart := decode .config (ConfigOf.decode repository)

def repos : Value → Decoded (List (Text × RepositoryPart)) := Schema.map repository

/-- A repository none of whose parts is an object yet. -/
def ofRepository (r : Repository) : RepositoryPart :=
  fresh { r with vcsConfig := r.vcsConfig.map fresh, urlPattern := r.urlPattern.map fresh }

/-- A configuration none of whose parts is an object yet. -/
def ofConfig (c : Config) : ConfigPart :=
  fresh { c with repos := Entries.mapValues ofRepository c.repos }

end Part

namespace Workspace

/-- Makes a new object. -/
def add (kind : Kind) (o : Object) : StateM Workspace Handle :=
  modifyGet fun w => (⟨kind, w.objects.length⟩, { w with objects := w.objects ++ [o] })

def addRecord (kind : Kind) (members : List (Text × Value)) : StateM Workspace Handle :=
  add kind (.ofEntries (Value.underNames members))

/-- The object that a part is or becomes. -/
def settle {α : Type} (make : α → StateM Workspace Handle) : Part α → StateM Workspace Handle
  | .held h => pure h
  | .fresh a => make a

/-- The object that a part is or becomes, if there is a part. -/
def settle? {α : Type} (make : α → StateM Workspace Handle) :
    Option (Part α) → StateM Workspace (Option Value)
  | none => pure none
  | some part => do return some (.live (← settle make part))

def addSecret (s : Secret) : StateM Workspace Handle := addRecord .secret s.members

def addPattern (p : UrlPattern) : StateM Workspace Handle := addRecord .pattern p.members

def addRepository (r : RepositoryOf SecretPart PatternPart) : StateM Workspace Handle := do
  let secret ← settle? addSecret r.vcsConfig
  let pattern ← settle? addPattern r.urlPattern
  let r : RepositoryOf Value Value := { r with vcsConfig := secret, urlPattern := pattern }
  addRecord .repository r.members

def settleRepos : List (Text × RepositoryPart) → StateM Workspace (List (Text × Value))
  | [] => pure []
  | (name, part) :: repos => do
    let h ← settle addRepository part
    let others ← settleRepos repos
    pure ((name, .live h) :: others)

def addConfig (c : ConfigOf RepositoryPart) : StateM Workspace Handle := do
  let repos ← settleRepos c.repos
  let c : ConfigOf Value := { c with repos := repos }
  addRecord .config c.members

/-- Makes a dictionary of repositories. -/
def addRepos (repos : List (Text × RepositoryPart)) : StateM Workspace Handle := do
  let repos ← settleRepos repos
  add .dictionary (.ofEntries (Value.underNames repos))

end Workspace

end SearchConfig
