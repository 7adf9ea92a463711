import SearchConfig.Value.Items
import SearchConfig.Value.Member
import SearchConfig.Value.Truth
import SearchConfig.Workspace.Basic

/-!
# Members of objects

An object has the members that it was given and those of its kind: fields, methods, and what is
computed. What a record of declared fields lacks is looked for among its private members, if it was
told that the name is private, and in what is no field of it otherwise. These can be any values, and
looking into an object asks for its members again, so that the search may go around in a circle:
then it ends after as many steps as there could be without a circle.
-/

namespace SearchConfig

/-- What objects of a kind have in common, seen from an object. -/
def Inherited.member (self : Member) (kind : Kind) (name : Text) : Inherited → Member
  | method described => .routine .method self described false
  | kindMethod described => .routine .method (.kind kind) described false
  | function described => .function described
  | value v => .value v
  | other typeName => .other typeName
  | common _ => Value.routine (.bare 0) self name

namespace Kind

/-- The member that holds all others, by name. -/
def membersMember : Text := "__dict__"

/-- A member that nothing is ever put into. -/
def referrersMember : Text := "__weakref__"

/-- The computed members of records, each with the hidden one that it shows. -/
def shownHidden : List (Text × Text) := [
  (givenMember, givenMember),
  (extraMember, extraMember),
  (privateMember, privateMember),
  ("model_fields_set", givenMember),
  ("__fields_set__", givenMember),
  ("model_extra", extraMember)]

end Kind

namespace Value

/-- Is a name without the mark of private ones in front? -/
def isDeclared (name : Text) : Bool := name.head? != some (.scalar '_')

/-- What the members of a record give one by one: the declared ones, each with its name. -/
def declaredPairs (members : List (Value × Value)) : Except Misuse (List (Value × Value)) := do
  let pairs ← members.mapM fun (key, v) =>
    match key.unkept with
    | text name => .ok (if isDeclared name then [(text name, v)] else [])
    | key => .error (notName key)
  return pairs.flatten

/-- What stands under a name in a value. -/
def namedPart (name : Text) : Value → Except Misuse Value
  | dict entries =>
    match named? name entries with
    | some v => .ok v
    | none => .error (.noKey name.quoted)
  | v =>
    if v.numbered?.isSome then .error (.notIndex v.typeName (text name).typeName)
    else .error (.notSubscriptable v.typeName)

end Value

namespace Workspace

/-- The member that holds all others. -/
def members (w : Workspace) (h : Handle) : Value :=
  match (w.stored h).holding with
  | .own entries => .dict entries
  | .common dictionary => .live dictionary

/-- How many items a value has, with the payloads of secrets opened to a depth. -/
def lengthFrom (w : Workspace) : Nat → Value → Except Misuse Nat
  | n + 1, .live h =>
    if h.kind = .secret then lengthFrom w n (w.payloadOf h)
    else (w.laidOpen (.live h)).length
  | _, v => v.length

/-- Does a value count as true? -/
def isTrue (w : Workspace) (v : Value) : Except Misuse Bool :=
  match v with
  | .live h =>
    if h.kind = .secret ∨ h.kind = .dictionary then
      (w.lengthFrom (w.objects.length + 1) v).map (· != 0)
    else .ok true
  | v => v.isTrue

/-- What an object has under a name, apart from what is looked for elsewhere. -/
def ownPart? (w : Workspace) (h : Handle) (name : Text) : Option Member :=
  let self := Member.value (.live h)
  let given : Option Member := (w.member? h name).map .value
  let inherited : Option Member := (h.kind.inherited? name).map (·.member self h.kind name)
  if name = Value.kindMember then some self.typeOf
  else match h.kind with
    | .dictionary => (Value.dict []).partAs? self name
    | .secret => if name = Secret.payloadMember then some (.value (w.payloadOf h)) else inherited
    | kind =>
      if name = Kind.membersMember then some (.value (w.members h))
      else if name = Kind.referrersMember then some (.value .null)
      else if !kind.isModel then given.or inherited
      else if name = Member.fieldTableName then some (.value (.dict []))
      else match Entries.get? name Kind.shownHidden with
        | some hidden => some (.value (w.hidden h hidden))
        | none => given.or inherited

/-- The complaint that an object lacks a member. -/
def lacking (h : Handle) (name : Text) : Misuse :=
  if !h.kind.isModel then .noMember h.kind.name name
  else if name = "__signature__" then .kindOnly h.kind.name name
  else .unknownMember h.kind.name name

mutual

/-- A member of something, looked for in a number of steps. -/
def findFrom (w : Workspace) : Nat → Member → Text → Except Misuse Member
  | 0, _, _ => .error .endless
  | n + 1, m, name =>
    match m with
    | .value (.live h) =>
      match w.ownPart? h name with
      | some part => .ok part
      | none => if h.kind.isModel then elsewhereFrom w n h name else .error (lacking h name)
    | m =>
      match m.part? name with
      | some part => .ok part
      | none => .error (m.searched.lacks name)

/-- What a record has under a name that neither itself nor its kind has. -/
def elsewhereFrom (w : Workspace) : Nat → Handle → Text → Except Misuse Member
  | 0, _, _ => .error .endless
  | n + 1, h, name => do
    let privateNames := (w.member? h Kind.privateNamesMember).getD (.dict [])
    if ← holdsFrom w n privateNames name then
      let descriptor ← (w.laidOpen privateNames).namedPart name
      match findFrom w n (.value descriptor) "__get__" with
      | .ok m => .error (.notCallable m.typeName)
      | .error misuse => if !misuse.isAbsence then .error misuse
      match (w.laidOpen (w.hidden h Kind.privateMember)).namedPart name with
      | .ok v => return .value v
      | .error (.noKey _) => .error (lacking h name)
      | .error misuse => .error misuse
    else
      let extra := w.hidden h Kind.extraMember
      if !(← w.isTrue extra) then .error (lacking h name)
      if !(← holdsFrom w n extra name) then .error (lacking h name)
      return .value (← (w.laidOpen extra).namedPart name)

/-- Is the text part of a text, or an item of anything else? -/
def holdsFrom (w : Workspace) : Nat → Value → Text → Except Misuse Bool
  | 0, _, _ => .error .endless
  | n + 1, v, needle =>
    match w.laidOpen v with
    | .live h =>
      if h.kind.isModel then (pairsFrom w n h).map fun _ => false
      else .error (.notSearchable h.kind.name)
    | v => v.holdsText needle

/-- What a record gives one by one: its declared members and what is no field of it. -/
def pairsFrom (w : Workspace) : Nat → Handle → Except Misuse (List (Value × Value))
  | 0, _ => .error .endless
  | n + 1, h => do
    let declared ← Value.declaredPairs (w.entries h)
    let extra := w.hidden h Kind.extraMember
    if ← w.isTrue extra then return declared ++ (← entriesFrom w n extra) else return declared

/-- The entries of what should be a dictionary. -/
def entriesFrom (w : Workspace) : Nat → Value → Except Misuse (List (Value × Value))
  | 0, _ => .error .endless
  | n + 1, v =>
    match w.laidOpen v with
    | .dict entries => .ok (entries.map fun (key, v) => (key.unkept, v))
    | v => do
      let m ← findFrom w n (.value v) "items"
      .error (.notCallable m.typeName)

end

/-- A search that takes more steps than this goes around in a circle: it comes to each object for
three names at most, and takes five steps there. -/
def reach (w : Workspace) : Nat := 15 * (w.objects.length + 1)

/-- A member of something. -/
def find (w : Workspace) (m : Member) (name : Text) : Except Misuse Member :=
  w.findFrom w.reach m name

/-- The entries of what should be a dictionary. -/
def entriesOf (w : Workspace) (v : Value) : Except Misuse (List (Value × Value)) :=
  w.entriesFrom w.reach v

/-- Is the text part of a text, or an item of anything else? -/
def holds (w : Workspace) (v : Value) (needle : Text) : Except Misuse Bool :=
  w.holdsFrom w.reach v needle

/-- The items of a value one by one. -/
def itemsOf (w : Workspace) (v : Value) : Except Misuse (List Value) :=
  match w.laidOpen v with
  | .live h =>
    if h.kind.isModel then
      (w.pairsFrom w.reach h).map fun pairs => pairs.map fun (key, v) => .tuple [key, v]
    else .error (.notIterable h.kind.name)
  | v => v.items

/-- The value of a member, which must be one. -/
def memberValue (w : Workspace) (v : Value) (name : Text) : Except Misuse Value := do
  match ← w.find (.value v) name with
  | .value part => return part
  | _ => .error ((Member.value v).lacks name)

/-- Makes sure that a value has something to be called under a name. -/
def call (w : Workspace) (v : Value) (name : Text) : Except Misuse Unit := do
  match ← w.find (.value v) name with
  | .value part => .error (.notCallable part.typeName)
  | _ => return

end Workspace

end SearchConfig
