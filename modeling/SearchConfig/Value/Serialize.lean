import SearchConfig.Value.Basic
import SearchConfig.Text.Utf8

/-!
# Dynamic values as JSON

A value has a JSON text if it is built from texts, numbers, truth values, lists, tuples and
dictionaries whose keys are texts, numbers, truth values or null; such keys are written as strings.
The first part that has none decides the fault.
-/

namespace SearchConfig

/-- Why a value has no JSON text. -/
inductive SerializeFault where
  | unsupported (typeName : Text)
  | unsupportedKey (typeName : Text)
  | tooManyDigits
  | circular
  deriving DecidableEq

def tooManyDigitsMessage : Text :=
  "Exceeds the limit (4300 digits) for integer string conversion; "
    ++ "use sys.set_int_max_str_digits() to increase the limit"

def SerializeFault.message : SerializeFault → Text
  | unsupported typeName => "Object of type " ++ typeName ++ " is not JSON serializable"
  | unsupportedKey typeName =>
    "keys must be str, int, float, bool or None, not " ++ typeName
  | tooManyDigits => tooManyDigitsMessage
  | circular => "Circular reference detected"

namespace Value

/-- A code point inside a string; a lone surrogate is escaped where only ASCII is written. -/
def escapePoint (style : Json.Style) : CodePoint → Text
  | .scalar c => Text.ofChars (Json.escape style c)
  | .surrogate offset =>
    if style.asciiOnly then Text.ofChars (Json.unitEscape (0xD800 + offset))
    else [.surrogate offset]

def serializeText (style : Json.Style) (t : Text) : Text :=
  .scalar '"' :: (t.flatMap (escapePoint style) ++ [.scalar '"'])

def serializeInt (n : Int) : Except SerializeFault Text :=
  if Digits.isWritable n then .ok (Text.ofInt n) else .error .tooManyDigits

/-- The text that a key is written as, not yet quoted. -/
def keyText : Value → Except SerializeFault Text
  | text t => .ok t
  | float x => .ok (Text.ofChars (x.display .words))
  | nan _ => .ok (Text.ofChars (Binary64.nan.display .words))
  | bool true => .ok "true"
  | bool false => .ok "false"
  | null => .ok "null"
  | int n => serializeInt n
  | v => .error (.unsupportedKey v.typeName)

mutual

/-- The JSON text of a value. -/
def serialize (style : Json.Style) : Value → Except SerializeFault Text
  | null => .ok "null"
  | bool true => .ok "true"
  | bool false => .ok "false"
  | int n => serializeInt n
  | float x => .ok (Text.ofChars (x.display .words))
  | nan _ => .ok (Text.ofChars (Binary64.nan.display .words))
  | text t => .ok (serializeText style t)
  | list items => do
    return .scalar '[' :: ((← serializeItems style items) ++ [.scalar ']'])
  | tuple items => do
    return .scalar '[' :: ((← serializeItems style items) ++ [.scalar ']'])
  | dict entries => do
    return .scalar '\x7b' :: ((← serializeEntries style entries) ++ [.scalar '\x7d'])
  | endless _ | again _ => .error .circular
  | v => .error (.unsupported v.typeName)

def serializeItems (style : Json.Style) : List Value → Except SerializeFault Text
  | [] => .ok []
  | [item] => serialize style item
  | item :: items => do
    let first ← serialize style item
    let others ← serializeItems style items
    return first ++ Text.ofChars style.itemSeparator ++ others

def serializeEntries (style : Json.Style) : List (Value × Value) → Except SerializeFault Text
  | [] => .ok []
  | [(key, v)] => do
    let key ← keyText key
    let value ← serialize style v
    return serializeText style key ++ Text.ofChars style.keySeparator ++ value
  | (key, v) :: entries => do
    let key ← keyText key
    let value ← serialize style v
    let others ← serializeEntries style entries
    return serializeText style key ++ Text.ofChars style.keySeparator ++ value
      ++ Text.ofChars style.itemSeparator ++ others

end

end Value

/-- Why a value cannot be captured as a secret. -/
inductive CaptureFault where
  | absent
  | unserializable (fault : SerializeFault)
  | unencodable (run : LoneSurrogates)
  deriving DecidableEq

def CaptureFault.message : CaptureFault → Text
  | absent => "SecretMessage: decode called without a value"
  | unserializable fault => "SecretMessage: value is not JSON serializable: " ++ fault.message
  | unencodable run => run.message

namespace Secret

/-- Captures a value: a secret stays as it is, byte strings are taken to be JSON already. -/
def capture : Value → Except CaptureFault Secret
  | .null => .error .absent
  | .secret s => .ok s
  | .bytes b => .ok ⟨b⟩
  | .buffer b => .ok ⟨b⟩
  | v =>
    match v.serialize .compact with
    | .error fault => .error (.unserializable fault)
    | .ok t =>
      match t.encode with
      | .error run => .error (.unencodable run)
      | .ok bytes => .ok ⟨bytes⟩

end Secret

end SearchConfig
