import SearchConfig.Decimal.Digits

/-!
# Texts

A text is a list of code points. Besides the Unicode scalar values a text may hold lone
surrogates, because a caller's strings may: such a text is stored, compared and cut like any
other, but it has no UTF-8 form (`Text.chars?` is `none`).

Texts are ordered by the values of their code points, the order in which names are listed.
-/

namespace SearchConfig

/-- A scalar value, or half of a surrogate pair that stands alone. -/
inductive CodePoint where
  | scalar (c : Char)
  | surrogate (offset : Fin 2048)
  deriving DecidableEq, Inhabited

namespace CodePoint

/-- The number of the code point; the surrogates fill the gap from `0xD800` to `0xDFFF`. -/
def value : CodePoint → Nat
  | scalar c => c.toNat
  | surrogate offset => 0xD800 + offset

/-- The code point with the given number, if there is one. -/
def ofNat? (n : Nat) : Option CodePoint :=
  if h : n.isValidChar then some (scalar (Char.ofNatAux n h))
  else if n < 0x110000 then some (surrogate (Fin.ofNat 2048 (n - 0xD800)))
  else none

def char? : CodePoint → Option Char
  | scalar c => some c
  | surrogate _ => none

instance : Coe Char CodePoint := ⟨scalar⟩

end CodePoint

abbrev Text := List CodePoint

namespace Text

def ofChars (cs : List Char) : Text := cs.map .scalar

def ofString (s : String) : Text := ofChars s.toList

instance : Coe String Text := ⟨ofString⟩

/-- The characters of a text without lone surrogates. -/
def chars? : Text → Option (List Char)
  | [] => some []
  | .scalar c :: t => (chars? t).map (c :: ·)
  | .surrogate _ :: _ => none

/-- The text as a string, each lone surrogate shown as the replacement character. -/
def toString (t : Text) : String :=
  String.ofList (t.map fun c => c.char?.getD '\uFFFD')

/-- The order of listings: by code point, a proper beginning first. -/
def le : Text → Text → Bool
  | [], _ => true
  | _ :: _, [] => false
  | a :: s, b :: t => a.value < b.value || (a == b && le s t)

/-- The same character `n` times. -/
def repeated (c : Char) (n : Nat) : Text := List.replicate n (.scalar c)

def ofNat (n : Nat) : Text := ofChars (Digits.natural n)

def ofInt (n : Int) : Text := ofChars (Digits.integer n)

/-- Hexadecimal digits, at least `width` of them. -/
def ofHex (width n : Nat) : Text := ofChars (Digits.hex width n)

/-- The parts with the separator between each two. -/
def join (separator : Text) (parts : List Text) : Text := separator.intercalate parts

/-- The text filled up with blanks on the right to the given width. -/
def padRight (width : Nat) (t : Text) : Text := t ++ repeated ' ' (width - t.length)

end Text

end SearchConfig
