import SearchConfig.Decimal.Binary64
import SearchConfig.Value.Handle

/-!
# Hash codes

Each value that can stand in a set has a hash code, and equal values have equal ones. The code of a
number is its remainder by `2 ^ 61 - 1`, a fraction being divided in that field, and the code of a
tuple is mixed from those of its items. The code of a text or a byte string depends on its raw
content in a way that differs from run to run, so it is known by that content, and what is equal to
itself alone has a code of its own.
-/

namespace SearchConfig

inductive HashCode where
  | number (n : UInt64)
  /-- The code of raw content. -/
  | content (bytes : List UInt8)
  | null
  /-- The code of an object that is equal to itself alone. -/
  | object (h : Handle)
  /-- The code of any other value that is equal to itself alone, by its mark. -/
  | own (mark : Nat)
  /-- What is mixed from several codes, not all of which are numbers. -/
  | mixed (codes : List HashCode)
  deriving Inhabited

namespace HashCode

mutual

def same : HashCode → HashCode → Bool
  | number m, number n => m = n
  | content a, content b => a = b
  | null, null => true
  | object h, object k => h = k
  | own m, own n => m = n
  | mixed as, mixed bs => sameCodes as bs
  | _, _ => false

def sameCodes : List HashCode → List HashCode → Bool
  | [], [] => true
  | a :: as, b :: bs => same a b && sameCodes as bs
  | _, _ => false

end

def number? : HashCode → Option UInt64
  | number n => some n
  | _ => none

/-- Numbers are taken modulo this, `2 ^ 61 - 1`. -/
def modulus : Nat := 0x1FFFFFFFFFFFFFFF

/-- The code of a remainder with a sign; minus one is no code. -/
def ofRemainder (negative : Bool) (remainder : Nat) : HashCode :=
  let n := (remainder % modulus).toUInt64
  number (if !negative then n else if n = 1 then -2 else -n)

def ofInt (n : Int) : HashCode := ofRemainder (n < 0) n.natAbs

/-- The code of an infinite number, without its sign. -/
def infinite : Nat := 314159

/-- The code of a number, unless it is `nan`. Two to the power of 61 leaves the remainder one. -/
def ofFloat? : Binary64 → Option HashCode
  | .nan => none
  | .infinity negative => some (ofRemainder negative infinite)
  | .finite negative significand exponent =>
    some (ofRemainder negative (significand * Nat.pow 2 (exponent % 61).toNat))

/-- The code of raw content. -/
def ofContent (bytes : List UInt8) : HashCode :=
  if bytes.isEmpty then number 0 else content bytes

/-- The last bytes of a number, the lowest first. -/
def bytesOf (width n : Nat) : List UInt8 :=
  (List.range width).map fun k => (n >>> (8 * k)).toUInt8

/-- The raw content of a text: as many bytes for each code point as the greatest of them needs. -/
def rawText (t : Text) : List UInt8 :=
  let width := if t.all (·.value < 0x100) then 1 else if t.all (·.value < 0x10000) then 2 else 4
  t.flatMap fun c => bytesOf width c.value

/-- Mixes a number into others. -/
def mixIn (mixture n : UInt64) : UInt64 :=
  let mixture := mixture + n * 14029467366897019727
  (mixture <<< 31 ||| mixture >>> 33) * 11400714785074694791

/-- The code of numbers that are mixed in their order. -/
def ofNumbers (numbers : List UInt64) : HashCode :=
  let seed : UInt64 := 2870177450012600261
  let mixture := numbers.foldl mixIn seed + (numbers.length.toUInt64 ^^^ (seed ^^^ 3527539))
  number (if mixture = -1 then 1546275796 else mixture)

/-- The code that is mixed from several others. -/
def mix (codes : List HashCode) : HashCode :=
  match codes.mapM number? with
  | some numbers => ofNumbers numbers
  | none => mixed codes

end HashCode

end SearchConfig
