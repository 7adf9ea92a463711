import SearchConfig.Value.KeyTable

/-!
# Equal values

Numbers are equal across their types, and so are byte strings; lists and tuples are equal item by
item, sets and dictionaries in any order. Whether an object is equal to something is asked of a rule
for objects. Parts of values that are one and the same are equal without being looked at, so that
`nan` can be equal to itself there.
-/

namespace SearchConfig.Value

/-- The bytes of a byte string of either kind. -/
def bytes? : Value → Option ByteArray
  | bytes b => some b
  | buffer b => some b
  | _ => none

def sameNumber : Int ⊕ Binary64 → Int ⊕ Binary64 → Bool
  | .inl m, .inl n => m = n
  | .inr x, .inr y => x.same y
  | _, _ => false

/-- Are two values that hold no others equal? -/
def samePlain (v w : Value) : Bool :=
  match v, w with
  | null, null => true
  | text s, text t => s = t
  | secret s, secret t => s = t
  | bare m, bare n => m = n
  | setter, setter => true
  | _, _ =>
    match v.number?, w.number?, v.bytes?, w.bytes? with
    | some x, some y, _, _ => sameNumber x y
    | _, _, some a, some b => a.data = b.data
    | _, _, _, _ => false

/-- Are two values one and the same, though they need not be equal? -/
def isIdentical : Value → Value → Bool
  | nan m, nan n => m = n
  | live h, live k => h = k
  | _, _ => false

/-- Is a value equal to an endless list? Two such lists that differ are compared without end. -/
def isEndless (mark : Nat) : Value → Except Misuse Bool
  | endless other => if mark = other then .ok true else .error .endlessComparison
  | list [item] => isEndless mark item
  | _ => .ok false

mutual

/-- Are two values equal, by a rule for all pairs with an object? -/
def sameBy (sameObject : Value → Value → Except Misuse Bool) (v w : Value) : Except Misuse Bool :=
  match v, w with
  | kept _ v, w => sameBy sameObject v w
  | live h, w => sameObject (live h) w
  | v, live h => sameObject v (live h)
  | list xs, list ys =>
    if xs.length ≠ ys.length then .ok false else sameItems sameObject xs ys
  | tuple xs, tuple ys => sameItems sameObject xs ys
  | set xs, set ys => if xs.length ≠ ys.length then .ok false else areMembers sameObject xs ys
  | dict xs, dict ys => if xs.length ≠ ys.length then .ok false else areEntries sameObject xs ys
  | endless mark, w => isEndless mark w
  | v, endless mark => isEndless mark v
  | v, w => .ok (samePlain v w)

/-- Are two lists of items equal, item by item? -/
def sameItems (sameObject : Value → Value → Except Misuse Bool) :
    List Value → List Value → Except Misuse Bool
  | [], [] => .ok true
  | x :: xs, y :: ys => do
    let isSame ← if isIdentical x y then .ok true else sameBy sameObject x y
    if isSame then sameItems sameObject xs ys else return false
  | _, _ => .ok false

/-- Is each of the first a member of the second? -/
def areMembers (sameObject : Value → Value → Except Misuse Bool) :
    List Value → List Value → Except Misuse Bool
  | [], _ => .ok true
  | x :: xs, ys => do
    let code ← x.foundBy
    let isFound ← ys.anyM fun y => do
      if !(← y.foundBy).same code then return false
      if isIdentical x.unkept y.unkept then return true
      sameBy sameObject x y.unkept
    if isFound then areMembers sameObject xs ys else return false

/-- Are the first entries among the second? -/
def areEntries (sameObject : Value → Value → Except Misuse Bool) :
    List (Value × Value) → List (Value × Value) → Except Misuse Bool
  | [], _ => .ok true
  | (key, v) :: xs, ys => do
    match ← lookup? (isIdentical key.unkept) (sameBy sameObject key) ys (← key.foundBy) with
    | none => return false
    | some w =>
      let isSame ← if isIdentical v w then .ok true else sameBy sameObject v w
      if isSame then areEntries sameObject xs ys else return false

end

end SearchConfig.Value
