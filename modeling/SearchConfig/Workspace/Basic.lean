import SearchConfig.Workspace.Form

/-!
# Workspaces

A workspace holds live objects: patterns, repositories, configurations, linkers, secrets and
dictionaries. An object is known by its handle, so that one object can be part of several others and
a change to it shows in all of them. Names stand for objects.

The snapshot of a value is what it is at a moment, with the objects in it opened; an object that is
part of itself is not opened again there.
-/

namespace SearchConfig

/-- Where the entries of an object are: its own, or those of a dictionary that it has in common with
others. -/
inductive Holding where
  | own (entries : List (Value × Value))
  | common (dictionary : Handle)

/-- What an object holds: a dictionary its entries, anything else its members under their names. The
hidden members of a record of declared fields lie beside them. -/
structure Object where
  holding : Holding
  hidden : List (Text × Value)

/-- An object that holds entries and nothing else. -/
def Object.ofEntries (entries : List (Value × Value)) : Object := ⟨.own entries, []⟩

structure Workspace where
  objects : List Object
  names : List (Text × Handle)
  /-- How many marks there are of what is equal to itself alone. -/
  marks : Nat

namespace Value

mutual

/-- The value as it is told, with the objects in it replaced: one rule is for the keys of
dictionaries and one for everything else. -/
def replaceLive {m : Type → Type} [Monad m] (key part : Handle → m Value) : Value → m Value
  | live h => part h
  | nan _ => return float .nan
  | kept _ v => replaceLive key part v
  | list items => return list (← replaceItems key part items)
  | tuple items => return tuple (← replaceItems key part items)
  | set items => return set (← replaceItems key part items)
  | dict entries => return dict (← replaceEntries key part entries)
  | record kind members => return record kind (← replaceEntries key part members)
  | v => return v

def replaceItems {m : Type → Type} [Monad m] (key part : Handle → m Value) :
    List Value → m (List Value)
  | [] => return []
  | item :: items => do
    let item ← replaceLive key part item
    return item :: (← replaceItems key part items)

def replaceEntries {m : Type → Type} [Monad m] (key part : Handle → m Value) :
    List (Value × Value) → m (List (Value × Value))
  | [] => return []
  | (k, v) :: entries => do
    let k ← replaceLive key key k
    let v ← replaceLive key part v
    return (k, v) :: (← replaceEntries key part entries)

end

/-- What is left of an object that is part of itself. -/
def cut : Value → Value
  | secret s => secret s
  | record kind members => record kind (Entries.mapValues (fun _ => endless 0) members)
  | v => again v.typeName

end Value

namespace Workspace

def empty : Workspace := ⟨[], [], 0⟩

instance : Inhabited Workspace := ⟨empty⟩

def lookup? (w : Workspace) (name : Text) : Option Handle := Entries.get? name w.names

def bind (w : Workspace) (name : Text) (h : Handle) : Workspace :=
  { w with names := Entries.put name h w.names }

def stored (w : Workspace) (h : Handle) : Object := w.objects[h.number]?.getD (.ofEntries [])

def store (w : Workspace) (h : Handle) (o : Object) : Workspace :=
  { w with objects := w.objects.set h.number o }

/-- The object whose own the entries of an object are. -/
def holder (w : Workspace) (h : Handle) : Handle :=
  match (w.stored h).holding with
  | .own _ => h
  | .common dictionary => dictionary

/-- The entries of a dictionary, or the members of any other object. -/
def entries (w : Workspace) (h : Handle) : List (Value × Value) :=
  match (w.stored (w.holder h)).holding with
  | .own entries => entries
  | .common _ => []

/-- Gives an object other entries. -/
def storeEntries (w : Workspace) (h : Handle) (entries : List (Value × Value)) : Workspace :=
  let holder := w.holder h
  w.store holder { w.stored holder with holding := .own entries }

/-- A member of an object. -/
def member? (w : Workspace) (h : Handle) (name : Text) : Option Value :=
  Value.named? name (w.entries h)

/-- A hidden member of a record. -/
def hidden (w : Workspace) (h : Handle) (name : Text) : Value :=
  (Entries.get? name ((w.stored h).hidden ++ Kind.hiddenMembers)).getD .null

/-- An object as a value whose own parts may be objects again. -/
def content (w : Workspace) (h : Handle) : Value :=
  match h.kind, w.entries h with
  | .dictionary, entries => .dict entries
  | .secret, [(_, .bytes b)] => .secret ⟨b⟩
  | kind, members => .record kind members

/-- The payload of a secret. -/
def payloadOf (w : Workspace) (h : Handle) : Value := (w.member? h Secret.payloadMember).getD .null

/-- A dictionary as its entries, and anything else as it is. -/
def laidOpen (w : Workspace) (v : Value) : Value :=
  match v with
  | .live h => if h.kind = .dictionary then .dict (w.entries h) else v
  | v => v

/-- Takes a mark for something that is equal to itself alone. -/
def newMark : StateM Workspace Nat :=
  modifyGet fun w => (w.marks + 1, { w with marks := w.marks + 1 })

/-! ## Snapshots -/

/-- The value with the objects of some kinds opened, below the objects of a path, and the keys of
dictionaries with those of other kinds. -/
def openFrom {m : Type → Type} [Monad m] (content : Handle → m Value)
    (opensKey opens : Kind → Bool) : Nat → List Handle → Value → m Value
  | 0, _, v => return v
  | n + 1, path, v =>
    let opened (opens : Kind → Bool) (h : Handle) : m Value := do
      if !opens h.kind then return .live h
      let v ← content h
      if path.contains h then return v.cut
      openFrom content opensKey opens n (h :: path) v
    v.replaceLive (opened opensKey) (opened opens)

def isAnyKind (_ : Kind) : Bool := true

def isDictionary (kind : Kind) : Bool := kind = .dictionary

def isNoSecret (kind : Kind) : Bool := kind ≠ .secret

/-- The value with the objects of some kinds opened, and keys with those of others. -/
def openAll (w : Workspace) (opensKey opens : Kind → Bool) (v : Value) : Value :=
  Id.run (openFrom (fun h => return w.content h) opensKey opens (w.objects.length + 1) [] v)

/-- The value at this moment. -/
def snapshot (w : Workspace) (v : Value) : Value := w.openAll isAnyKind isAnyKind v

/-- The value at this moment, with its secrets sealed. -/
def sealed (w : Workspace) (v : Value) : Value := w.openAll isNoSecret isNoSecret v

/-- The value with its dictionaries opened and all their keys as they are at this moment. -/
def keyed (w : Workspace) (v : Value) : Value := w.openAll isAnyKind isDictionary v

end Workspace

end SearchConfig
