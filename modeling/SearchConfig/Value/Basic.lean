import SearchConfig.Secret
import SearchConfig.Value.HashCode

/-!
# Dynamic values

What a caller may hand over in place of JSON data: besides the JSON values, texts with lone
surrogates, byte strings, tuples, sets, dictionaries with any keys, bare objects, a list that
contains itself, and secrets. A live object of a workspace is known by its handle; a record is such
an object as it was at a moment, with all that it held. Its members stand under names like the
entries of a dictionary, and an entry without a name may be among them.
-/

namespace SearchConfig

inductive Value where
  | null
  | bool (b : Bool)
  | int (n : Int)
  | float (x : Binary64)
  /-- A number that is equal to none, not to itself either, and is known by its mark. -/
  | nan (mark : Nat)
  | text (t : Text)
  | bytes (b : ByteArray)
  /-- A byte string that can be changed. -/
  | buffer (b : ByteArray)
  | list (items : List Value)
  | tuple (items : List Value)
  | set (items : List Value)
  | dict (entries : List (Value × Value))
  /-- An object without any content, which is known by its mark. -/
  | bare (mark : Nat)
  /-- The function that gives a field of a record its value. -/
  | setter
  /-- A list whose only item is itself, known by its mark, and whatever else holds itself. -/
  | endless (mark : Nat)
  /-- What holds itself, at a place inside of itself, by the name of its type. -/
  | again (typeName : Text)
  | secret (s : Secret)
  | live (h : Handle)
  | record (kind : Kind) (members : List (Value × Value))
  /-- A member of a set or a key of a dictionary that can change: it is found by the hash code that
  it had when it was put there. -/
  | kept (code : HashCode) (v : Value)
  deriving Inhabited

namespace Binary64

/-- The integer that a number is equal to, if it is one. -/
def toInt? : Binary64 → Option Int
  | finite negative significand exponent =>
    let r := ratio significand exponent
    if r.numerator % r.denominator = 0 then
      some (if negative then -(r.floor : Int) else r.floor)
    else none
  | _ => none

/-- Numerical equality: the zeros are equal, and `nan` differs from everything. -/
def same : Binary64 → Binary64 → Bool
  | nan, _ => false
  | finite _ 0 _, finite _ 0 _ => true
  | x, y => x = y

end Binary64

namespace Value

/-- Integers of a machine word lie below this, `2 ^ 63`, and not below its negative. -/
def wordLimit : Int := 0x8000000000000000

/-- The name of a value's type. -/
def typeName : Value → Text
  | null => "NoneType"
  | bool _ => "bool"
  | int _ => "int"
  | float _ => "float"
  | nan _ => "float"
  | text _ => "str"
  | bytes _ => "bytes"
  | buffer _ => "bytearray"
  | list _ => "list"
  | tuple _ => "tuple"
  | set _ => "set"
  | dict _ => "dict"
  | bare _ => "object"
  | setter => "function"
  | endless _ => "list"
  | again typeName => typeName
  | secret _ => Kind.secret.name
  | live h => h.kind.name
  | record kind _ => kind.name
  | kept _ v => typeName v

def isNull : Value → Bool
  | null => true
  | _ => false

/-- The text of a value, if it is one. -/
def text? : Value → Option Text
  | text t => some t
  | _ => none

/-- Is the value the text? -/
def isText (t : Text) : Value → Bool
  | text u => t = u
  | _ => false

/-- The value under a name. -/
def named? (name : Text) (entries : List (Value × Value)) : Option Value :=
  (entries.find? fun (key, _) => key.isText name).map Prod.snd

/-- Puts a value under a name, in its place or, if the name is new, at the end. -/
def putNamed (name : Text) (v : Value) : List (Value × Value) → List (Value × Value)
  | [] => [(text name, v)]
  | (key, u) :: entries =>
    if key.isText name then (key, v) :: entries else (key, u) :: putNamed name v entries

/-- The number that a value is equal to: truth values count as one and zero. -/
def number? : Value → Option (Int ⊕ Binary64)
  | bool b => some (.inl b.toInt)
  | int n => some (.inl n)
  | float x => some (x.toInt?.elim (.inr x) .inl)
  | nan _ => some (.inr .nan)
  | _ => none

/-- Is the value equal to zero? -/
def isZero (v : Value) : Bool :=
  match v.number? with
  | some (.inl n) => n = 0
  | _ => false

/-- The integer that a value stands for where one is required. -/
def integer? : Value → Option Int
  | int n => some n
  | bool b => some b.toInt
  | _ => none

end Value

end SearchConfig
