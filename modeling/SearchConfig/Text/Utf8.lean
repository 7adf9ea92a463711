import SearchConfig.Text.Basic

/-!
# UTF-8

A text has a UTF-8 form unless it holds lone surrogates, and then the first run of them is the
fault. Bytes are read strictly: overlong forms, encoded surrogates and numbers past `0x10FFFF` are
refused. `decodeFault?` names the first place at which bytes stop being UTF-8 and why.
-/

namespace SearchConfig

/-- A run of adjacent lone surrogates and its place in a text. -/
structure LoneSurrogates where
  position : Nat
  first : CodePoint
  count : Nat
  deriving DecidableEq

namespace LoneSurrogates

def message (run : LoneSurrogates) : Text :=
  if run.count = 1 then
    "'utf-8' codec can't encode character '\\u" ++ Text.ofHex 4 run.first.value ++ "' in position "
      ++ Text.ofNat run.position ++ ": surrogates not allowed"
  else
    "'utf-8' codec can't encode characters in position " ++ Text.ofNat run.position ++ "-"
      ++ Text.ofNat (run.position + run.count - 1) ++ ": surrogates not allowed"

end LoneSurrogates

namespace Text

/-- The first run of lone surrogates, counting places from `position`. -/
def loneSurrogatesFrom? (position : Nat) : Text → Option LoneSurrogates
  | [] => none
  | c :: t =>
    match c with
    | .scalar _ => loneSurrogatesFrom? (position + 1) t
    | .surrogate _ =>
      some ⟨position, c, 1 + (t.takeWhile fun d => d.char?.isNone).length⟩

def loneSurrogates? (t : Text) : Option LoneSurrogates := loneSurrogatesFrom? 0 t

/-- The characters of a text, or its first run of lone surrogates. -/
def characters (t : Text) : Except LoneSurrogates (List Char) :=
  match t.loneSurrogates? with
  | some run => .error run
  | none => .ok (t.filterMap CodePoint.char?)

def encode (t : Text) : Except LoneSurrogates ByteArray :=
  t.characters.map fun cs => (String.ofList cs).toUTF8

/-- The text with each lone surrogate replaced by three replacement characters, one for each byte
that an encoder without checks would give it. -/
def legible (t : Text) : List Char :=
  t.flatMap fun c => match c.char? with
    | some c => [c]
    | none => ['\uFFFD', '\uFFFD', '\uFFFD']

end Text

namespace Utf8

/-- The characters of strictly valid UTF-8. -/
def decode? (bytes : ByteArray) : Option (List Char) := bytes.utf8Decode?.map Array.toList

inductive Reason where
  | invalidStart
  | invalidContinuation
  | unexpectedEnd
  deriving DecidableEq

/-- Bytes that belong to no character: `length` of them from `position` on. -/
structure DecodeFault where
  position : Nat
  length : Nat
  first : UInt8
  reason : Reason
  deriving DecidableEq

/-- How many bytes follow a first byte, and between which bounds the next of them lies. -/
def following? (b : UInt8) : Option (Nat × UInt8 × UInt8) :=
  if b < 0xC2 then none
  else if b < 0xE0 then some (1, 0x80, 0xBF)
  else if b = 0xE0 then some (2, 0xA0, 0xBF)
  else if b = 0xED then some (2, 0x80, 0x9F)
  else if b < 0xF0 then some (2, 0x80, 0xBF)
  else if b = 0xF0 then some (3, 0x90, 0xBF)
  else if b < 0xF4 then some (3, 0x80, 0xBF)
  else if b = 0xF4 then some (3, 0x80, 0x8F)
  else none

/-- A character that has begun: its first byte and place, how many of its bytes are read and how
many are missing, and the bounds of the next. -/
structure Begun where
  first : UInt8
  position : Nat
  read : Nat
  missing : Nat
  low : UInt8
  high : UInt8

def decodeFaultFrom? (position : Nat) (begun : Option Begun) : List UInt8 → Option DecodeFault
  | [] => begun.map fun c => ⟨c.position, c.read, c.first, .unexpectedEnd⟩
  | b :: bytes =>
    match begun with
    | none =>
      if b < 0x80 then decodeFaultFrom? (position + 1) none bytes
      else match following? b with
        | none => some ⟨position, 1, b, .invalidStart⟩
        | some (missing, low, high) =>
          decodeFaultFrom? (position + 1) (some ⟨b, position, 1, missing, low, high⟩) bytes
    | some c =>
      if c.low ≤ b ∧ b ≤ c.high then
        let next := if c.missing ≤ 1 then none
          else some ⟨c.first, c.position, c.read + 1, c.missing - 1, 0x80, 0xBF⟩
        decodeFaultFrom? (position + 1) next bytes
      else some ⟨c.position, c.read, c.first, .invalidContinuation⟩

/-- The first place at which the bytes are not UTF-8. -/
def decodeFault? (bytes : ByteArray) : Option DecodeFault := decodeFaultFrom? 0 none bytes.toList

def Reason.message : Reason → Text
  | .invalidStart => "invalid start byte"
  | .invalidContinuation => "invalid continuation byte"
  | .unexpectedEnd => "unexpected end of data"

/-- Which bytes cannot be read by an encoding: `length` of them from `position` on. -/
def unreadablePlace (encoding : Text) (position length : Nat) (first : UInt8) : Text :=
  if length = 1 then
    "'" ++ encoding ++ "' codec can't decode byte 0x" ++ Text.ofHex 2 first.toNat
      ++ " in position " ++ Text.ofNat position
  else
    "'" ++ encoding ++ "' codec can't decode bytes in position " ++ Text.ofNat position ++ "-"
      ++ Text.ofNat (position + length - 1)

/-- Which bytes cannot be read. -/
def DecodeFault.place (fault : DecodeFault) : Text :=
  unreadablePlace "utf-8" fault.position fault.length fault.first

def DecodeFault.message (fault : DecodeFault) : Text := fault.place ++ ": " ++ fault.reason.message

end Utf8

end SearchConfig
