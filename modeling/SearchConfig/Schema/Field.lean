import SearchConfig.Schema.Source
import SearchConfig.Entries

/-!
# Fields

A field of a record has two names, the outer one of configuration files and an inner one. It is
looked up under the outer name and, only if no entry has that, under the inner name; of several
entries with one name the last counts. Null in a field of texts, integers or truth values stands
for the empty text, zero or false.
-/

namespace SearchConfig

structure FieldName where
  outer : Text
  inner : Text
  deriving DecidableEq

/-- Which of its two names a field is written under. -/
inductive Naming where
  | outer
  | inner
  deriving DecidableEq

namespace FieldName

/-- A field with one name. -/
def same (name : Text) : FieldName := ⟨name, name⟩

def under (field : FieldName) : Naming → Text
  | .outer => field.outer
  | .inner => field.inner

end FieldName

namespace Schema

variable {α β : Type} [Source α]

omit [Source α] in
/-- The last value that has the given name. -/
def named? (name : Text) (entries : List (Key × α)) : Option α :=
  Entries.last? (some name) (entries.map fun (key, v) => (key.text?, v))

omit [Source α] in
/-- The value of a field and the name it was found under. -/
def find? (field : FieldName) (entries : List (Key × α)) : Option (Text × α) :=
  match named? field.outer entries with
  | some v => some (field.outer, v)
  | none => (named? field.inner entries).map fun v => (field.inner, v)

omit [Source α] in
/-- A field that may be left out. -/
def optional (field : FieldName) (absent : β) (read : α → Decoded β) (entries : List (Key × α)) :
    Decoded β :=
  match find? field entries with
  | some (name, v) => (read v).under (.key name)
  | none => .accepted absent

omit [Source α] in
/-- A field that must be there. -/
def required (field : FieldName) (read : α → Decoded β) (entries : List (Key × α)) : Decoded β :=
  match find? field entries with
  | some (name, v) => (read v).under (.key name)
  | none => (Decoded.fail .missing).under (.key field.outer)

/-- The entries of a record. -/
def record (read : List (Key × α) → Decoded β) (v : α) : Decoded β :=
  match Source.shape v with
  | .object entries => read entries
  | _ => .fail .notRecord

/-- Null stands for the absence of a value. -/
def nullable (read : α → Decoded β) (v : α) : Decoded (Option β) :=
  match Source.shape v with
  | .null => .accepted none
  | _ => (read v).map some

def text (v : α) : Decoded Text :=
  match Source.shape v with
  | .null => .accepted []
  | .text t => .accepted t
  | _ => .fail .notText

def integer (v : α) : Decoded Int :=
  match Source.shape v with
  | .null => .accepted 0
  | .integer n => .accepted n
  | _ => .fail .notInteger

/-- A truth value, for which null does not stand. -/
def strictTruth (v : α) : Decoded Bool :=
  match Source.shape v with
  | .truth b => .accepted b
  | _ => .fail .notTruth

def truth (v : α) : Decoded Bool :=
  match Source.shape v with
  | .null => .accepted false
  | _ => strictTruth v

def secret (v : α) : Decoded Secret :=
  match Source.capture v with
  | .ok s => .accepted s
  | .error fault => .fail (.notCaptured fault)

/-- An entry of a map: its name and its value are looked at both. -/
def entry (read : α → Decoded β) : Key × α → Decoded (Text × β)
  | (key, v) =>
    (Prod.mk <$> key.name.under (.key "[key]") <*> read v).under key.step

/-- The entries of a map, put together one by one. -/
def entries (read : α → Decoded β) (entries : List (Key × α)) : Decoded (List (Text × β)) :=
  (Decoded.all (entries.map (entry read))).map Entries.collapse

/-- A map of names. -/
def map (read : α → Decoded β) (v : α) : Decoded (List (Text × β)) :=
  match Source.shape v with
  | .object es => entries read es
  | _ => .fail .notMap

/-- A map of names, for which null stands as the empty one, and of whose repeated keys only the last
value is looked at. -/
def nullableMap (read : α → Decoded β) (v : α) : Decoded (List (Text × β)) :=
  match Source.shape v with
  | .null => .accepted []
  | .object es => entries read (Entries.collapse es)
  | _ => .fail .notMap

end Schema

end SearchConfig
