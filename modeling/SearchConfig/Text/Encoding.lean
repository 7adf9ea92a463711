import SearchConfig.Text.Case
import SearchConfig.Text.CodePages
import SearchConfig.Text.Search
import SearchConfig.Text.Utf8

/-!
# Encodings

The bytes of a file stand for a text by an encoding, which is known by several names. Bytes that the
encoding has no text for are refused, and the first of them are named.
-/

namespace SearchConfig

/-- Which byte of a number stands first. -/
inductive ByteOrder where
  | littleEndian
  | bigEndian
  deriving DecidableEq

namespace ByteOrder

/-- The number that bytes make up. -/
def number (order : ByteOrder) (bytes : List UInt8) : Nat :=
  let bytes := match order with
    | littleEndian => bytes.reverse
    | bigEndian => bytes
  bytes.foldl (fun n b => n * 256 + b.toNat) 0

/-- The name of the encoding of a family with this order. -/
def codec (order : ByteOrder) (family : Text) : Text :=
  match order with
  | littleEndian => family ++ "-le"
  | bigEndian => family ++ "-be"

end ByteOrder

inductive Encoding where
  | utf8
  /-- UTF-8 in front of which a mark of the order of bytes means nothing. -/
  | utf8Marked
  | ascii
  /-- Each byte is the number of a code point. -/
  | latin1
  /-- Units of two bytes, in the given order or in that of the mark in front. -/
  | utf16 (order : Option ByteOrder)
  /-- Units of four bytes. -/
  | utf32 (order : Option ByteOrder)
  | paged (page : CodePage)

/-- Why bytes stand for no text. -/
inductive EncodingFault where
  | utf8 (fault : Utf8.DecodeFault)
  /-- Some bytes from a place on cannot be read. -/
  | unreadable (codec : Text) (position length : Nat) (first : UInt8) (reason : Text)
  /-- The mark that tells the order of bytes is missing. -/
  | unmarked (codec : Text)
  deriving DecidableEq

namespace EncodingFault

def message : EncodingFault → Text
  | utf8 fault => fault.message
  | unreadable codec position length first reason =>
    Utf8.unreadablePlace codec position length first ++ ": " ++ reason
  | unmarked codec => codec ++ " stream does not start with BOM"

end EncodingFault

namespace Encoding

/-! ## Names -/

/-- Is the code point a letter or a digit of ASCII? -/
def isNamePoint : CodePoint → Bool
  | .scalar c => c.isAlphanum || c = '.'
  | .surrogate _ => false

/-- The name in lower case with one underscore for all marks between two of its words. Whatever is
not in ASCII is left out. -/
def plainName (name : Text) : Text :=
  let marked : Text :=
    name.map fun c => if c.value < 0x80 ∧ !isNamePoint c then .scalar '_' else c
  let words := (marked.split (.scalar '_')).map fun word => word.filter isNamePoint
  Text.lower (Text.join "_" (words.filter (!·.isEmpty)))

/-- The encodings with all their names. -/
def all : List (String × Encoding) := [
  ("utf_8 u8 utf utf8 utf8_ucs2 utf8_ucs4 cp65001 locale", utf8),
  ("utf_8_sig", utf8Marked),
  ("ascii 646 ansi_x3.4_1968 ansi_x3_4_1968 ansi_x3.4_1986 cp367 csascii ibm367 iso646_us "
    ++ "iso_646.irv_1991 iso_ir_6 us us_ascii", ascii),
  ("latin_1 8859 cp819 csisolatin1 ibm819 iso8859 iso8859_1 iso_8859_1 iso_8859_1_1987 iso_ir_100 "
    ++ "l1 latin latin1", latin1),
  ("utf_16 u16 utf16", utf16 none),
  ("utf_16_le unicodelittleunmarked utf_16le", utf16 (some .littleEndian)),
  ("utf_16_be unicodebigunmarked utf_16be", utf16 (some .bigEndian)),
  ("utf_32 u32 utf32", utf32 none),
  ("utf_32_le utf_32le", utf32 (some .littleEndian)),
  ("utf_32_be utf_32be", utf32 (some .bigEndian)),
  ("cp1250 1250 windows_1250", paged CodePage.windows1250),
  ("cp1251 1251 windows_1251", paged CodePage.windows1251),
  ("cp1252 1252 windows_1252", paged CodePage.windows1252),
  ("iso8859_2 csisolatin2 iso_8859_2 iso_8859_2_1987 iso_ir_101 l2 latin2", paged CodePage.latin2),
  ("iso8859_5 csisolatincyrillic cyrillic iso_8859_5 iso_8859_5_1988 iso_ir_144",
    paged CodePage.latinCyrillic),
  ("iso8859_15 iso_8859_15 l9 latin9", paged CodePage.latin9),
  ("koi8_r cskoi8r", paged CodePage.koi8R),
  ("cp437 437 cspc8codepage437 ibm437", paged CodePage.ibm437),
  ("cp850 850 cspc850multilingual ibm850", paged CodePage.ibm850),
  ("cp866 866 csibm866 ibm866", paged CodePage.ibm866),
  ("mac_roman macintosh macroman", paged CodePage.macRoman)]

/-- The encoding of a name. -/
def ofName? (name : Text) : Option Encoding :=
  let name := plainName name
  (all.find? fun (names, _) => (Text.split (.scalar ' ') names).contains name).map Prod.snd

/-- The names of what changes bytes or texts but stands for no text. -/
def otherNames : List Text := Text.split (.scalar ' ') <|
  "base64 base_64 base64_codec bz2 bz2_codec hex hex_codec quopri quoted_printable quopri_codec "
    ++ "quotedprintable rot13 rot_13 uu uu_codec zip zlib zlib_codec"

/-! ## Units -/

def isHighHalf (unit : Nat) : Bool := 0xD800 ≤ unit && unit < 0xDC00

def isLowHalf (unit : Nat) : Bool := 0xDC00 ≤ unit && unit < 0xE000

def point (n : Nat) : CodePoint := (CodePoint.ofNat? n).getD default

/-- The text of units of two bytes, the first of which stands at a place. -/
def decodeUnits (order : ByteOrder) (position : Nat) :
    List UInt8 → Except EncodingFault Text
  | [] => .ok []
  | a :: bytes =>
    let fault (length : Nat) (reason : Text) : Except EncodingFault Text :=
      .error (.unreadable (order.codec "utf-16") position length a reason)
    match bytes with
    | [] => fault 1 "truncated data"
    | b :: bytes =>
      let unit := order.number [a, b]
      if isLowHalf unit then fault 2 "illegal encoding"
      else if isHighHalf unit then
        match bytes with
        | c :: d :: bytes =>
          let low := order.number [c, d]
          if isLowHalf low then do
            let rest ← decodeUnits order (position + 4) bytes
            return point (0x10000 + (unit - 0xD800) * 0x400 + (low - 0xDC00)) :: rest
          else fault 2 "illegal UTF-16 surrogate"
        | bytes => fault (2 + bytes.length) "unexpected end of data"
      else do
        let rest ← decodeUnits order (position + 2) bytes
        return point unit :: rest

/-- The text of units of four bytes, the first of which stands at a place. -/
def decodeWideUnits (order : ByteOrder) (position : Nat) :
    List UInt8 → Except EncodingFault Text
  | [] => .ok []
  | a :: b :: c :: d :: bytes =>
    let n := order.number [a, b, c, d]
    let fault (reason : Text) : Except EncodingFault Text :=
      .error (.unreadable (order.codec "utf-32") position 4 a reason)
    if isHighHalf n || isLowHalf n then
      fault "code point in surrogate code point range(0xd800, 0xe000)"
    else if 0x110000 ≤ n then fault "code point not in range(0x110000)"
    else do
      let rest ← decodeWideUnits order (position + 4) bytes
      return point n :: rest
  | a :: bytes =>
    .error (.unreadable (order.codec "utf-32") position (bytes.length + 1) a "truncated data")

/-- Reads units in the order of the mark in front of them. Without a mark there is only nothing to
read, or what could not be read anyway. -/
def decodeMarked (family : Text) (mark : List UInt8)
    (decode : ByteOrder → Nat → List UInt8 → Except EncodingFault Text) (bytes : List UInt8) :
    Except EncodingFault Text :=
  let width := mark.length
  if mark.isPrefixOf bytes then decode .littleEndian width (bytes.drop width)
  else if mark.reverse.isPrefixOf bytes then decode .bigEndian width (bytes.drop width)
  else do
    let _ ← decode .littleEndian 0 bytes
    if bytes.isEmpty then return [] else throw (.unmarked family)

/-! ## Bytes -/

/-- The text of bytes that stand for one character each. -/
def decodeBytes (codec reason : Text) (character? : UInt8 → Option Char) (position : Nat) :
    List UInt8 → Except EncodingFault Text
  | [] => .ok []
  | b :: bytes =>
    match character? b with
    | none => .error (.unreadable codec position 1 b reason)
    | some c => do
      let rest ← decodeBytes codec reason character? (position + 1) bytes
      return .scalar c :: rest

def decodeUtf8 (bytes : ByteArray) : Except EncodingFault Text :=
  match Utf8.decode? bytes, Utf8.decodeFault? bytes with
  | none, some fault => .error (.utf8 fault)
  | cs, _ => .ok (Text.ofChars (cs.getD []))

/-- The mark of the order of bytes in UTF-8. -/
def utf8Mark : List UInt8 := [0xEF, 0xBB, 0xBF]

/-- The text that bytes stand for. -/
def decode (encoding : Encoding) (bytes : ByteArray) : Except EncodingFault Text :=
  match encoding with
  | utf8 => decodeUtf8 bytes
  | utf8Marked =>
    let all := bytes.toList
    if all.isPrefixOf utf8Mark then .ok []
    else if utf8Mark.isPrefixOf all then decodeUtf8 ⟨(all.drop utf8Mark.length).toArray⟩
    else decodeUtf8 bytes
  | ascii =>
    decodeBytes "ascii" "ordinal not in range(128)" (CodePage.character? []) 0 bytes.toList
  | latin1 => .ok (bytes.toList.map fun b => .scalar (Char.ofNat b.toNat))
  | utf16 (some order) => decodeUnits order 0 bytes.toList
  | utf16 none => decodeMarked "UTF-16" [0xFF, 0xFE] decodeUnits bytes.toList
  | utf32 (some order) => decodeWideUnits order 0 bytes.toList
  | utf32 none => decodeMarked "UTF-32" [0xFF, 0xFE, 0, 0] decodeWideUnits bytes.toList
  | paged page =>
    decodeBytes "charmap" "character maps to <undefined>" page.character? 0 bytes.toList

end Encoding

end SearchConfig
