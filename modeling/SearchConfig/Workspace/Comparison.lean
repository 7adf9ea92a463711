import SearchConfig.Value.Equality
import SearchConfig.Value.SetOrder
import SearchConfig.Workspace.Action

/-!
# Comparing objects

Objects are the same if they are one object. Records that were made from the same are equal if their
hidden members and all that they hold are, or else if their fields are; secrets are equal if their
payloads are, dictionaries if their entries are, and a linker equals itself alone. Inside of other
values an object equals itself whatever it holds, but asked directly it compares what it holds, and
`nan` is not equal to itself.

Only what has no parts that can be changed, and secrets by their payloads and linkers by themselves,
can be counted as members of a set or stand as keys of a dictionary.
-/

namespace SearchConfig

/-- Are two values that count as true one and the same because such values are made only once? -/
def Value.isUnique (v w : Value) : Bool :=
  match v, w with
  | bool a, bool b => a = b
  | int m, int n => m = n && -5 ≤ m && m ≤ 256
  | text [c], text [d] => c = d && c.value < 0x100
  | bytes a, bytes b => a.size = 1 && a.data = b.data
  | bare m, bare n => m = n
  | setter, setter => true
  | endless m, endless n => m = n
  | v, w => v.isIdentical w

namespace Workspace

/-! ## Hash codes -/

/-- The hash code of an object, with the payloads of secrets opened to a depth. -/
def hashFrom (w : Workspace) : Nat → Handle → Except Misuse HashCode
  | 0, _ => .error .endless
  | n + 1, h =>
    match h.kind with
    | .secret => (w.payloadOf h).hashCode (hashFrom w n)
    | .linker => .ok (.object h)
    | kind => .error (.unhashable kind.name)

/-- The hash code of a value at this moment. -/
def hashCode (w : Workspace) (v : Value) : Except Misuse HashCode :=
  v.hashCode (w.hashFrom (w.objects.length + 1))

/-! ## Equality -/

/-- What a record says that its kind was made from, if it says something. -/
def origin? (w : Workspace) (h : Handle) : Except Misuse (Option Value) := do
  match w.member? h Kind.originsMember with
  | none => return none
  | some origins =>
    let origin ← (w.laidOpen origins).namedPart "origin"
    return if ← w.isTrue origin then some origin else none

/-- Are the kinds of two records made from the same? -/
def haveSameOrigin (w : Workspace) (h k : Handle) : Except Misuse Bool := do
  match (← w.origin? h), (← w.origin? k) with
  | none, none => return h.kind = k.kind
  | some a, some b => return w.holder h = w.holder k || a.isUnique b
  | _, _ => return false

/-- What is no field of a record: there is nothing if it counts as false. -/
def extraOf (w : Workspace) (h : Handle) : Except Misuse Value := do
  let extra := w.hidden h Kind.extraMember
  return if ← w.isTrue extra then extra else .dict []

/-- Does a record hold nothing but fields? -/
def holdsFields (w : Workspace) (h : Handle) (kind : Kind) : Except Misuse Bool := do
  let entries := w.entries h
  if kind.fields.length < entries.length then return false
  entries.allM fun (key, _) => do
    let _ ← w.hashCode key.unkept
    return kind.isField key

/-- Are the fields of two records equal, by a rule for equality? -/
def haveSameFields (w : Workspace) (same : Value → Value → Except Misuse Bool) (h k : Handle) :
    Except Misuse Bool :=
  h.kind.fields.allM fun (field, _) =>
    match w.member? h field.inner, w.member? k field.inner with
    | none, none => .ok true
    | some v, some u => if v.isIdentical u then .ok true else same v u
    | _, _ => .ok false

/-- Are two records equal, by a rule for equality? -/
def haveSameContent (w : Workspace) (same : Value → Value → Except Misuse Bool) (h k : Handle) :
    Except Misuse Bool := do
  let hidden (h : Handle) : Value := w.hidden h Kind.privateMember
  if !(← w.haveSameOrigin h k) then return false
  if !(← same (hidden h) (hidden k)) then return false
  if !(← same (← w.extraOf h) (← w.extraOf k)) then return false
  if ← same (.dict (w.entries h)) (.dict (w.entries k)) then return true
  if ← w.holdsFields h h.kind then
    if ← w.holdsFields k h.kind then return false
  w.haveSameFields same h k

/-- Is a pair with an object equal, with objects opened to a depth? -/
def sameObjectFrom (w : Workspace) : Nat → Value → Value → Except Misuse Bool
  | 0, _, _ => .error .endlessComparison
  | n + 1, v, u =>
    let same := Value.sameBy (sameObjectFrom w n)
    match w.laidOpen v, w.laidOpen u with
    | .live h, .live k =>
      if h.kind.isModel ∧ k.kind.isModel then w.haveSameContent same h k
      else if h.kind = .secret ∧ k.kind = .secret then same (w.payloadOf h) (w.payloadOf k)
      else .ok (h = k)
    | .live _, _ | _, .live _ => .ok false
    | v, u => same v u

/-- Is a pair with an object equal at this moment? Unless two objects hold themselves in circles,
each pair of objects is come to once at most below another. -/
def sameObject (w : Workspace) (v u : Value) : Except Misuse Bool :=
  w.sameObjectFrom (w.objects.length * w.objects.length + 2) v u

/-- Are two values equal at this moment? -/
def isEqual (w : Workspace) (v u : Value) : Except Misuse Bool := Value.sameBy w.sameObject v u

def compare (name : Text) (v : Value) : Action Reply := do
  let h ← object name
  let equal ← used ((← get).isEqual (.live h) v)
  return .value (.list [.bool equal, .bool !equal])

def isSame (name other : Text) : Action Reply := do
  return .value (.bool ((← object name) = (← object other)))

def haveSameHash (name other : Text) : Action Reply := do
  let h ← object name
  let k ← object other
  let code ← used ((← get).hashCode (.live h))
  let otherCode ← used ((← get).hashCode (.live k))
  return .value (.bool (code.same otherCode))

/-! ## Sets and dictionaries -/

/-- Adds a value to the members of a set. -/
def addMember (w : Workspace) (members : List Value) (v : Value) : Except Misuse (List Value) := do
  let kept := v.keptBy (← w.hashCode v)
  let isThere ← Value.areMembers w.sameObject [kept] members
  return if isThere then members else members ++ [kept]

/-- The set of members that were added one by one. -/
def setOf (members : List Value) : Except Misuse Value := do
  let coded ← members.mapM fun v => return (← v.foundBy, v)
  return .set (Value.setOrder coded)

/-- Puts a value under a key among the entries of a dictionary, where the key that came first
stays. -/
def putKey (w : Workspace) (entries : List (Value × Value)) (key v : Value) :
    Except Misuse (List (Value × Value)) := do
  let kept := key.keptBy (← w.hashCode key)
  let place ← entries.zipIdx.findM? fun ((other, _), _) =>
    Value.areMembers w.sameObject [kept] [other]
  match place with
  | some ((other, _), i) => return entries.set i (other, v)
  | none => return entries ++ [(kept, v)]

/-- How many different objects the names stand for. -/
def countDistinct (names : List Text) : Action Reply := do
  let values := (← names.mapM object).map Value.live
  let members ← used (values.foldlM (addMember (← get)) [])
  return .value (.int members.length)

end Workspace

end SearchConfig
