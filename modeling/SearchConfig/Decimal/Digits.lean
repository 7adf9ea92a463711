/-!
# Digits

Natural numbers and integers as their decimal digits, and natural numbers as hexadecimal digits in
lower case. Integers of more than `Digits.limit` decimal digits are neither read nor written.
-/

namespace SearchConfig.Digits

/-- The longest integer, in decimal digits, that is read or written as text. -/
def limit : Nat := 4300

def natural (n : Nat) : List Char := Nat.toDigits 10 n

def integer : Int → List Char
  | .ofNat n => natural n
  | .negSucc n => '-' :: natural (n + 1)

/-- How many decimal digits a natural number is written with. -/
def count (n : Nat) : Nat := (natural n).length

/-- Has the integer a text within the limit? -/
def isWritable (n : Int) : Bool := count n.natAbs ≤ limit

/-- Hexadecimal digits, at least `width` of them. -/
def hex (width n : Nat) : List Char :=
  let digits := Nat.toDigits 16 n
  List.replicate (width - digits.length) '0' ++ digits

/-- The number that decimal digits stand for. -/
def value (digits : List Char) : Nat :=
  digits.foldl (fun n c => 10 * n + (c.toNat - '0'.toNat)) 0

/-- The value of a hexadecimal digit of either case. -/
def hexValue? (c : Char) : Option Nat :=
  if '0' ≤ c ∧ c ≤ '9' then some (c.toNat - '0'.toNat)
  else if 'a' ≤ c ∧ c ≤ 'f' then some (c.toNat - 'a'.toNat + 10)
  else if 'A' ≤ c ∧ c ≤ 'F' then some (c.toNat - 'A'.toNat + 10)
  else none

end SearchConfig.Digits
