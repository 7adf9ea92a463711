import SearchConfig.Json.Basic
import SearchConfig.Decimal.Shortest

/-!
# Writing JSON

Quotes, backslashes and control characters are escaped, the common ones by a letter. A style says
what stands between items and behind keys, and whether everything outside ASCII is escaped as well,
in UTF-16 units; the slash is never escaped.
-/

namespace SearchConfig.Json

/-- How values are laid out. -/
structure Style where
  itemSeparator : List Char
  keySeparator : List Char
  asciiOnly : Bool

namespace Style

/-- No blanks, and characters outside ASCII as they are. -/
def compact : Style := ⟨[','], [':'], false⟩

/-- A blank behind each comma and colon, and ASCII only. -/
def spaced : Style := ⟨[',', ' '], [':', ' '], true⟩

end Style

/-- The escape of a UTF-16 unit. -/
def unitEscape (unit : Nat) : List Char := '\\' :: 'u' :: Digits.hex 4 unit

/-- A character inside a string. -/
def escape (style : Style) (c : Char) : List Char :=
  if c = '"' then ['\\', '"']
  else if c = '\\' then ['\\', '\\']
  else if c = '\x08' then ['\\', 'b']
  else if c = '\x0c' then ['\\', 'f']
  else if c = '\n' then ['\\', 'n']
  else if c = '\r' then ['\\', 'r']
  else if c = '\t' then ['\\', 't']
  else if c < ' ' then unitEscape c.toNat
  else if !style.asciiOnly || c < '\x7f' then [c]
  else if c.toNat < 0x10000 then unitEscape c.toNat
  else
    let above := c.toNat - 0x10000
    unitEscape (0xD800 + above / 0x400) ++ unitEscape (0xDC00 + above % 0x400)

def printString (style : Style) (s : List Char) : List Char :=
  '"' :: (s.flatMap (escape style) ++ ['"'])

mutual

def print (style : Style) : Json → List Char
  | null => ['n', 'u', 'l', 'l']
  | bool true => ['t', 'r', 'u', 'e']
  | bool false => ['f', 'a', 'l', 's', 'e']
  | int n => Digits.integer n
  | float x => x.display .words
  | string s => printString style s
  | array items => '[' :: (printItems style items ++ [']'])
  | object entries => '\x7b' :: (printEntries style entries ++ ['\x7d'])

def printItems (style : Style) : List Json → List Char
  | [] => []
  | [item] => print style item
  | item :: items => print style item ++ style.itemSeparator ++ printItems style items

def printEntries (style : Style) : List (List Char × Json) → List Char
  | [] => []
  | [(key, value)] => printString style key ++ style.keySeparator ++ print style value
  | (key, value) :: entries =>
    printString style key ++ style.keySeparator ++ print style value ++ style.itemSeparator
      ++ printEntries style entries

end

/-- The bytes of the compact form. -/
def toBytes (v : Json) : ByteArray := (String.ofList (print .compact v)).toUTF8

end SearchConfig.Json
