import SearchConfig.Schema.Problem
import SearchConfig.Value.Display

/-!
# Data to decode

Records and maps are decoded alike from JSON data and from the dynamic values of a caller. All
that a decoder sees of a value is its shape; a key of an object has a text by which fields are
found, a name in maps, and a label in places.
-/

namespace SearchConfig

/-- A key of an object. -/
structure Key where
  /-- The text of the key, if it is one. -/
  text? : Option Text
  /-- The name that the key is in a map. -/
  name : Decoded Text
  /-- The step to the value. -/
  step : Step

/-- A key is repeated if its text is. -/
instance : BEq Key := ⟨fun a b => a.text?.isSome && a.text? == b.text?⟩

/-- What a decoder sees of a value. -/
inductive Shape (α : Type) where
  | null
  | truth (b : Bool)
  | integer (n : Int)
  | text (t : Text)
  | object (entries : List (Key × α))
  | other

/-- Values that records are decoded from. -/
class Source (α : Type) where
  shape : α → Shape α
  capture : α → Except CaptureFault Secret

namespace Json

/-- A key of JSON data is a text. -/
def key (name : List Char) : Key :=
  let t := Text.ofChars name
  ⟨some t, .accepted t, .key t⟩

def shape : Json → Shape Json
  | null => .null
  | bool b => .truth b
  | int n => .integer n
  | float _ => .other
  | string s => .text (Text.ofChars s)
  | array _ => .other
  | object entries => .object (entries.map fun (name, value) => (key name, value))

/-- Every JSON value but null is captured. -/
def capture : Json → Except CaptureFault Secret
  | null => .error .absent
  | v => .ok (Secret.ofJson v)

instance : Source Json := ⟨shape, capture⟩

end Json

namespace Value

/-- A key as it is displayed, or a stand-in for one that cannot be. -/
def label (v : Value) : Text :=
  if v.isDisplayable then v.display else "<unprintable " ++ v.typeName ++ " object>"

/-- Is the integer small enough to be a step itself? -/
def isStep (n : Int) : Bool := -wordLimit ≤ n && n < wordLimit

/-- The step to a value of a dictionary. Small integers stand for themselves and everything else for
its text. -/
def keyStep : Value → Step
  | bool b => .number b.toInt
  | int n => if isStep n then .number n else .key (label (int n))
  | text t => .key (Text.ofChars t.legible)
  | v => .key (Text.ofChars v.label.legible)

/-- A key of a dictionary. Bytes that are UTF-8 name entries of a map, but no fields. -/
def key (v : Value) : Key :=
  let name := match v with
    | text t => .accepted t
    | bytes b => match Utf8.decode? b with
      | some cs => .accepted (Text.ofChars cs)
      | none => .fail .notUnicode
    | _ => .fail .notText
  let text? := match v with
    | text t => some t
    | _ => none
  ⟨text?, name, v.keyStep⟩

def shape : Value → Shape Value
  | null => .null
  | bool b => .truth b
  | int n => .integer n
  | text t => .text t
  | dict entries => .object (entries.map fun (k, v) => (k.key, v))
  | _ => .other

instance : Source Value := ⟨shape, Secret.capture⟩

end Value

end SearchConfig
