import SearchConfig.Decimal.Binary64

/-!
# The shortest decimal

A finite binary number is written with the fewest significant digits that read back to it. For each
number of digits only the two neighbours of the number on the decimal grid matter: the first grid on
which one of them reads back gives the decimal, the nearer of two, and of two equally near the one
with the even last digit. Seventeen digits always suffice; the exact expansion stands behind them.

The text is positional while the decimal point lies inside or just before the digits, and has a
fraction in any case; otherwise it has an exponent.
-/

namespace SearchConfig

namespace Decimal

/-- The decimal without zeros at its end. -/
def trim (d : Decimal) : Decimal :=
  let zeros := ((Digits.natural d.digits).reverse.takeWhile (· == '0')).length
  if d.digits = 0 then ⟨0, 0⟩ else ⟨d.digits / Nat.pow 10 zeros, d.exponent + zeros⟩

end Decimal

namespace Binary64

/-- The better of the two neighbours on the grid of `10 ^ exponent` that read back, if one does. -/
def neighbour? (significand : Nat) (binaryExponent exponent : Int) : Option Decimal :=
  let scaled := (ratio significand binaryExponent).shift 10 exponent
  let below : Decimal := ⟨scaled.floor, exponent⟩
  let above : Decimal := ⟨scaled.floor + 1, exponent⟩
  let readsBack (d : Decimal) : Bool :=
    ofDecimal false d = finite false significand binaryExponent
  match readsBack below, readsBack above with
  | true, true => some (if scaled.roundEven = scaled.floor then below else above)
  | true, false => some below
  | false, true => some above
  | false, false => none

/-- The finite number written out in full. -/
def exact (significand : Nat) : Int → Decimal
  | .ofNat k => ⟨significand * Nat.pow 2 k, 0⟩
  | .negSucc k => ⟨significand * Nat.pow 5 (k + 1), .negSucc k⟩

/-- The decimal with the fewest digits that reads back, without zeros at its end. -/
def shortest (significand : Nat) (exponent : Int) : Decimal :=
  if significand = 0 then ⟨0, 0⟩
  else
    let leading := (ratio significand exponent).floorLog10
    let grids : List Int := (List.range 17).map fun (more : Nat) => leading - more
    ((grids.findSome? (neighbour? significand exponent)).getD (exact significand exponent)).trim

/-- How numbers are spelled. -/
structure Spelling where
  nan : String
  infinity : String
  /-- The least power of ten that is written positionally. -/
  leastPower : Int
  /-- How many digits an exponent has at least, behind its sign. -/
  exponentWidth : Nat

namespace Spelling

/-- The words of the data format. -/
def words : Spelling := ⟨"NaN", "Infinity", -4, 2⟩

/-- The short words of displays. -/
def short : Spelling := ⟨"nan", "inf", -4, 2⟩

/-- The spelling that wastes nothing on exponents, for finite numbers. -/
def brief : Spelling := ⟨"null", "null", -5, 1⟩

end Spelling

def sign (negative : Bool) : List Char := if negative then ['-'] else []

/-- The digits with the point behind the first `whole` of them, filled up with zeros. -/
def positional (digits : List Char) : Int → List Char
  | .ofNat 0 => '0' :: '.' :: digits
  | .ofNat n =>
    digits.take n ++ List.replicate (n - digits.length) '0' ++ '.' ::
      (if digits.length ≤ n then ['0'] else digits.drop n)
  | .negSucc n => '0' :: '.' :: (List.replicate (n + 1) '0' ++ digits)

/-- An exponent with its sign and with zeros in front up to the given width. -/
def power (width : Nat) (exponent : Int) : List Char :=
  let digits := Digits.natural exponent.natAbs
  (if exponent < 0 then '-' else '+') :: (List.replicate (width - digits.length) '0' ++ digits)

/-- One digit, the others behind a point, and the exponent. -/
def scientific (width : Nat) (digits : List Char) (exponent : Int) : List Char :=
  let mantissa := match digits with
    | first :: second :: others => first :: '.' :: second :: others
    | _ => digits
  mantissa ++ 'e' :: power width exponent

/-- The text of a number: positional from the least power up to `10 ^ 16`. -/
def display (spelling : Spelling) : Binary64 → List Char
  | nan => spelling.nan.toList
  | infinity negative => sign negative ++ spelling.infinity.toList
  | finite negative significand exponent =>
    let d := shortest significand exponent
    let digits := Digits.natural d.digits
    let power := d.exponent + digits.length - 1
    sign negative ++
      (if spelling.leastPower ≤ power ∧ power < 16 then positional digits (power + 1)
      else scientific spelling.exponentWidth digits power)

end Binary64

end SearchConfig
