import SearchConfig.Decimal.Digits

/-!
# Binary floating-point numbers

A number of the 64-bit binary format is held as sign, significand and exponent, in exact natural
numbers. `Binary64.ofRatio` rounds a quotient to the nearest such number, a tie going to the even
significand, and `Binary64.ofDecimal` reads a decimal the same way; past the largest number lies
infinity, and below half the smallest lies zero, each with its sign.
-/

namespace SearchConfig

/-- A number of the 64-bit binary format. A finite one is `significand * 2 ^ exponent` with
`significand < 2 ^ 53` and `exponent` from `-1074` to `971`, and either `2 ^ 52 ≤ significand` or
`exponent = -1074`, so that every number has one form. -/
inductive Binary64 where
  | nan
  | infinity (negative : Bool)
  | finite (negative : Bool) (significand : Nat) (exponent : Int)
  deriving DecidableEq, Inhabited

/-- The decimal `digits * 10 ^ exponent`. -/
structure Decimal where
  digits : Nat
  exponent : Int
  deriving DecidableEq, Inhabited

/-- A quotient of natural numbers. -/
structure Ratio where
  numerator : Nat
  denominator : Nat

namespace Ratio

/-- The quotient divided by a power of the base. -/
def shift (base : Nat) (r : Ratio) : Int → Ratio
  | .ofNat k => { r with denominator := r.denominator * Nat.pow base k }
  | .negSucc k => { r with numerator := r.numerator * Nat.pow base (k + 1) }

def floor (r : Ratio) : Nat := r.numerator / r.denominator

/-- The nearest natural number, the even one of two equally near. -/
def roundEven (r : Ratio) : Nat :=
  let quotient := r.floor
  let remainder := r.numerator % r.denominator
  if 2 * remainder < r.denominator then quotient
  else if r.denominator < 2 * remainder then quotient + 1
  else quotient + quotient % 2

/-- The greatest `k` with `2 ^ k` at most the quotient, which is not zero. -/
def floorLog2 (r : Ratio) : Int :=
  let k : Int := (r.numerator.log2 : Int) - (r.denominator.log2 : Int)
  let scaled := r.shift 2 k
  if scaled.denominator ≤ scaled.numerator then k else k - 1

/-- The greatest `k` with `10 ^ k` at most the quotient, which is not zero. -/
def floorLog10 (r : Ratio) : Int :=
  let k : Int := (Digits.count r.numerator : Int) - (Digits.count r.denominator : Int)
  let scaled := r.shift 10 k
  if scaled.denominator ≤ scaled.numerator then k else k - 1

end Ratio

namespace Decimal

def ratio (d : Decimal) : Ratio := Ratio.shift 10 ⟨d.digits, 1⟩ (-d.exponent)

end Decimal

namespace Binary64

/-- What no significand reaches, `2 ^ 53`. -/
def significandLimit : Nat := 0x20000000000000

/-- The least exponent, at which the significand may be short. -/
def minExponent : Int := -1074

def maxExponent : Int := 971

/-- The number nearest to a quotient. -/
def ofRatio (negative : Bool) (r : Ratio) : Binary64 :=
  if r.numerator = 0 then finite negative 0 minExponent
  else
    let exponent := max (r.floorLog2 - 52) minExponent
    let significand := (r.shift 2 exponent).roundEven
    let (significand, exponent) :=
      if significand = significandLimit then (significandLimit / 2, exponent + 1)
      else (significand, exponent)
    if maxExponent < exponent then infinity negative else finite negative significand exponent

/-- The number nearest to a decimal. Decimals that are far out of range are not expanded. -/
def ofDecimal (negative : Bool) (d : Decimal) : Binary64 :=
  if d.digits = 0 then finite negative 0 minExponent
  else if 400 < d.exponent then infinity negative
  else if d.exponent + Digits.count d.digits < -400 then finite negative 0 minExponent
  else ofRatio negative d.ratio

/-- The exact quotient that a significand and an exponent stand for. -/
def ratio (significand : Nat) (exponent : Int) : Ratio := Ratio.shift 2 ⟨significand, 1⟩ (-exponent)

end Binary64

end SearchConfig
