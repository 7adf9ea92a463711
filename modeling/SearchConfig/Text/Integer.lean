import SearchConfig.Text.Category

/-!
# Reading integers

An integer in a text may have a sign, blanks around it and single underscores between its digits,
and its digits may be those of any script. It has at most `Digits.limit` digits.
-/

namespace SearchConfig.Text

/-- The blanks of ASCII that may stand around an integer. -/
def isAsciiBlank (c : CodePoint) : Bool := c == .scalar ' ' || (0x9 ≤ c.value && c.value ≤ 0xD)

/-- The code point in ASCII, if it is a digit or a blank of another script. -/
def toAscii (c : CodePoint) : CodePoint :=
  if c.value < 0x7F then c
  else if c.isBlank then .scalar ' '
  else match c.digit? with
    | some n => .scalar (Nat.digitChar n)
    | none => c

def underscore : CodePoint := .scalar '_'

/-- The digits of a number whose underscores stand between two digits each; `joined` says whether a
digit stands in front. -/
def digits? (joined : Bool) : Text → Option (List Char)
  | [] => if joined then some [] else none
  | c :: t =>
    if c = underscore then
      if joined then digits? false t else none
    else match c with
      | .scalar d => if d.isDigit then (digits? true t).map (d :: ·) else none
      | .surrogate _ => none

/-- The integer that a text stands for. -/
def integer? (t : Text) : Option Int :=
  let t := (t.map toAscii).dropWhile isAsciiBlank
  let t := (t.reverse.dropWhile isAsciiBlank).reverse
  let (negative, t) := match t with
    | .scalar '-' :: t => (true, t)
    | .scalar '+' :: t => (false, t)
    | t => (false, t)
  match digits? false t with
  | some ds =>
    if ds.length ≤ Digits.limit then
      let n : Int := Digits.value ds
      some (if negative then -n else n)
    else none
  | none => none

end SearchConfig.Text
