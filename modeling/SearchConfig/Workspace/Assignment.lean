import SearchConfig.Workspace.Action

/-!
# Giving values to members

A record of declared fields takes values for its fields and for private members, a linker for any
member, and a secret for its payload alone; no value is looked at when it is given. A record asks
its own members how others are given values, if it was given such members.
-/

namespace SearchConfig

namespace Workspace

/-- Puts a value under a name among the entries of an object. -/
def put (h : Handle) (name : Text) (v : Value) : Action Unit :=
  modify fun w => w.storeEntries h (Value.putNamed name v (w.entries h))

/-- Gives a hidden member of a record a value. -/
def putHidden (h : Handle) (name : Text) (v : Value) : Action Unit :=
  modify fun w =>
    let o := w.stored h
    w.store h { o with hidden := Entries.put name v o.hidden }

/-- Gives a field of a record a value and notes that it has one. -/
def putField (h : Handle) (name : Text) (v : Value) : Action Unit := do
  put h name v
  callable ((← get).hidden h Kind.givenMember) "add"

/-- Gives an object other members, those of a dictionary, which stays that of whoever has it. -/
def replaceMembers (h : Handle) (v : Value) : Action Unit := do
  let hold (holding : Holding) : Action Unit :=
    modify fun w => w.store h { w.stored h with holding := holding }
  match v with
  | .dict entries => hold (.own entries)
  | .live ⟨.dictionary, n⟩ => hold (.common ⟨.dictionary, n⟩)
  | _ => throw (.misused (.noMembers v.typeName))

/-- Gives a member of an object that is not made to be changed otherwise a value. -/
def putOwn (h : Handle) (name : Text) (v : Value) : Action Unit := do
  let hidden := if h.kind.isModel then Kind.hiddenMembers else []
  if name = Value.kindMember then throw (.misused (.noKind v.typeName))
  else if name = Kind.membersMember then replaceMembers h v
  else if name = Kind.referrersMember then throw (.misused (.notWritable h.kind.name name))
  else if hidden.any fun (n, _) => n = name then putHidden h name v
  else put h name v

/-- Are members of a name computed and cannot be given a value? -/
def isComputed (name : Text) : Bool :=
  name = Member.fieldTableName
    || Kind.shownHidden.any fun (shown, hidden) => shown = name && shown != hidden

/-- Is there a setter for a member among those that a record was given? Nothing else may stand in
its place. -/
def askSetters (setters : Value) (name : Text) : Action Bool := do
  let w ← get
  match w.laidOpen setters with
  | .dict entries =>
    match (Value.named? name entries).getD .null with
    | .null => return false
    | .setter => return true
    | v => throw (.misused (.notCallable v.typeName))
  | setters => do
    callable setters "get"
    return false

/-- Notes the setter of a field among those that a record was given. -/
def noteSetter (h : Handle) (name : Text) : Action Unit := do
  match (← get).member? h Kind.settersMember with
  | some (.dict entries) =>
    put h Kind.settersMember (.dict (Value.putNamed name .setter entries))
  | some (.live k) => put k name .setter
  | _ => return

/-- Gives a member of a record a value. -/
def assignToRecord (h : Handle) (name : Text) (v : Value) : Action Unit := do
  let w ← get
  let isField := (h.kind.field? name).isSome
  let setters := w.member? h Kind.settersMember
  let isKnown ← match setters with
    | some setters => askSetters setters name
    | none => pure isField
  if isKnown then putField h name v
  else
    if let some routine := w.member? h Kind.setterMember then
      throw (.misused (.notCallable routine.typeName))
    if isComputed name then throw (.misused (.noSetter h.kind.name name))
    else if !Value.isDeclared name then putOwn h name v
    else if isField then
      putField h name v
      noteSetter h name
    else throw (.misused (.noField h.kind.name name))

/-- Gives a member of an object a value. -/
def assignTo (h : Handle) (name : Text) (v : Value) : Action Unit := do
  match h.kind with
  | .linker => putOwn h name v
  | .secret =>
    if name = Secret.payloadMember then put h name v
    else if name = Value.kindMember then throw (.misused (.noKind v.typeName))
    else if (h.kind.inherited? name).isSome then throw (.misused (.readOnly h.kind.name name))
    else throw (.misused (.noMember h.kind.name name))
  | .dictionary =>
    match (Member.value (.dict [])).refusal? name v with
    | some misuse => throw (.misused misuse)
    | none => return
  | _ => assignToRecord h name v

/-- Gives a member of a member a value. -/
def assignMember (m : Member) (name : Text) (v : Value) : Action Unit :=
  match m with
  | .value (.live h) => assignTo h name v
  | m =>
    match m.refusal? name v with
    | some misuse => throw (.misused misuse)
    | none => return

/-- Gives the member at the end of a path a value. -/
def assignAlong (m : Member) : List Text → Value → Action Unit
  | [], _ => return
  | [name], v => assignMember m name v
  | name :: names, v => do
    let part ← used ((← get).find m name)
    assignAlong part names v

/-- Gives a member of a named object, or of a part of it, a value. -/
def assign (name : Text) (path : List Text) (v : Value) : Action Reply := do
  assignAlong (.value (.live (← object name))) path v
  return .value .null

end Workspace

end SearchConfig
