import SearchConfig.Value.Truth

/-!
# Payloads

What a caller may make a secret of directly: a byte string, a number of zero bytes, or the bytes
themselves one by one.
-/

namespace SearchConfig

/-- Why a value is no payload. -/
inductive PayloadFault where
  | text
  | negativeCount
  | hugeCount
  /-- More bytes than any byte string has. -/
  | tooLarge
  /-- More bytes than there is room for. -/
  | noRoom
  | noByte
  | notInteger (typeName : Text)
  | unsupported (typeName : Text)
  /-- The bytes cannot be asked for one by one. -/
  | misused (misuse : Misuse)
  deriving DecidableEq

def PayloadFault.message : PayloadFault → Text
  | text => "string argument without an encoding"
  | negativeCount => "negative count"
  | hugeCount => "cannot fit 'int' into an index-sized integer"
  | tooLarge => "byte string is too large"
  | noRoom => []
  | noByte => "bytes must be in range(0, 256)"
  | notInteger typeName => "'" ++ typeName ++ "' object cannot be interpreted as an integer"
  | unsupported typeName => "cannot convert '" ++ typeName ++ "' object to bytes"
  | misused misuse => misuse.message

namespace Value

/-- A byte string has fewer bytes than this. -/
def sizeLimit : Int := wordLimit - 33

/-- There is room for fewer bytes than this, `2 ^ 32`. -/
def roomLimit : Int := 0x100000000

/-- A number of zero bytes. -/
def zeros (n : Int) : Except PayloadFault ByteArray :=
  if n < -wordLimit ∨ wordLimit ≤ n then .error .hugeCount
  else if n < 0 then .error .negativeCount
  else if sizeLimit ≤ n then .error .tooLarge
  else if roomLimit ≤ n then .error .noRoom
  else .ok ⟨Array.replicate n.toNat 0⟩

def byte : Value → Except PayloadFault UInt8
  | int n => if 0 ≤ n ∧ n < 256 then .ok n.toNat.toUInt8 else .error .noByte
  | bool b => .ok b.toUInt8
  | v => .error (.notInteger v.typeName)

def bytesOf (items : List Value) : Except PayloadFault ByteArray :=
  (items.mapM byte).map fun bytes => ⟨bytes.toArray⟩

/-- The bytes that a value stands for. -/
def payload : Value → Except PayloadFault ByteArray
  | bytes b => .ok b
  | buffer b => .ok b
  | text _ => .error .text
  | int n => zeros n
  | bool b => zeros b.toInt
  | list items => bytesOf items
  | tuple items => bytesOf items
  | set items => bytesOf items
  | dict entries => bytesOf (entries.map Prod.fst)
  | endless m => .error (.notInteger (endless m).typeName)
  | v => .error (.unsupported v.typeName)

end Value

end SearchConfig
