import SearchConfig.RunSort
import SearchConfig.Value.Equality

/-!
# Ordered values

Numbers, texts and byte strings are ordered, and lists and tuples by the first of their items that
differ; a set is below those that hold all of it and more. Values of different types have no order,
and neither have objects. Whether items differ is asked of a rule for pairs with an object.
-/

namespace SearchConfig

namespace Binary64

/-- The quotient of a number with a sign, by its numerator and denominator. -/
def signedRatio (negative : Bool) (significand : Nat) (exponent : Int) : Int × Nat :=
  let r := ratio significand exponent
  (if negative then -(r.numerator : Int) else r.numerator, r.denominator)

end Binary64

namespace Value

/-- Is a quotient, or what lies beyond all quotients, below another? -/
def quotientBelow (a b : Int × Nat) : Bool := a.1 * b.2 < b.1 * a.2

/-- Is a number below another? Nothing is below `nan`, and `nan` is below nothing. -/
def numberBelow : Int ⊕ Binary64 → Int ⊕ Binary64 → Bool
  | .inl m, .inl n => m < n
  | .inl m, .inr (.finite negative s e) => quotientBelow (m, 1) (Binary64.signedRatio negative s e)
  | .inr (.finite negative s e), .inl n => quotientBelow (Binary64.signedRatio negative s e) (n, 1)
  | .inr (.finite p s e), .inr (.finite q t f) =>
    quotientBelow (Binary64.signedRatio p s e) (Binary64.signedRatio q t f)
  | .inr .nan, _ => false
  | _, .inr .nan => false
  | .inr (.infinity negative), .inr (.infinity other) => negative && !other
  | .inr (.infinity negative), _ => negative
  | _, .inr (.infinity negative) => !negative

/-- Is a value that holds no others below another? -/
def plainBelow (v w : Value) : Except Misuse Bool :=
  match v, w with
  | text s, text t => .ok (s != t && s.le t)
  | _, _ =>
    match v.number?, w.number?, v.bytes?, w.bytes? with
    | some x, some y, _, _ => .ok (numberBelow x y)
    | _, _, some a, some b => .ok (decide (a.toList < b.toList))
    | _, _, _, _ => .error (.incomparable v.typeName w.typeName)

/-- Is an endless list below a value? -/
def isEndlessBelow (mark : Nat) : Value → Except Misuse Bool
  | list [] => .ok false
  | list (item :: items) => do
    if ← isEndless mark item then return !items.isEmpty else isEndlessBelow mark item
  | endless other => if mark = other then .ok false else .error .endlessComparison
  | v => .error (.incomparable (endless mark).typeName v.typeName)

/-- Is a value below an endless list? -/
def isBelowEndless (mark : Nat) : Value → Except Misuse Bool
  | list [] => .ok true
  | list (item :: _) => do
    if ← isEndless mark item then return false else isBelowEndless mark item
  | endless other => if mark = other then .ok false else .error .endlessComparison
  | v => .error (.incomparable v.typeName (endless mark).typeName)

mutual

/-- Is a value below another, by a rule for the equality of pairs with an object? -/
def isBelow (sameObject : Value → Value → Except Misuse Bool) :
    Value → Value → Except Misuse Bool
  | list xs, list ys => itemsBelow sameObject xs ys
  | tuple xs, tuple ys => itemsBelow sameObject xs ys
  | set xs, set ys => if xs.length < ys.length then areMembers sameObject xs ys else .ok false
  | endless mark, v => isEndlessBelow mark v
  | v, endless mark => isBelowEndless mark v
  | v, w => plainBelow v w

def itemsBelow (sameObject : Value → Value → Except Misuse Bool) :
    List Value → List Value → Except Misuse Bool
  | [], ys => .ok !ys.isEmpty
  | _ :: _, [] => .ok false
  | x :: xs, y :: ys => do
    let isSame ← if isIdentical x y then .ok true else sameBy sameObject x y
    if isSame then itemsBelow sameObject xs ys else isBelow sameObject x y

end

/-- The values in their order. -/
def sorted (sameObject : Value → Value → Except Misuse Bool) (values : List Value) :
    Except Misuse (List Value) :=
  RunSort.sort (isBelow sameObject) values

end Value

end SearchConfig
