import SearchConfig.Text.Utf8
import SearchConfig.Secret

/-!
# Written forms

What is written of a record: an object of named parts, with its texts as they are. As JSON it
exists unless a text holds lone surrogates; in a name each of them is replaced by three
replacement characters instead.
-/

namespace SearchConfig

inductive Document where
  | null
  | truth (b : Bool)
  | integer (n : Int)
  | text (t : Text)
  | object (parts : List (Text × Document))
  deriving Inhabited

namespace Document

/-- A part that may be absent. -/
def ofOption {α : Type} (write : α → Document) : Option α → Document
  | none => null
  | some a => write a

mutual

def toJson : Document → Except LoneSurrogates Json
  | null => .ok .null
  | truth b => .ok (.bool b)
  | integer n => .ok (.int n)
  | text t => t.characters.map .string
  | object parts => (toJsonParts parts).map .object

def toJsonParts : List (Text × Document) → Except LoneSurrogates (List (List Char × Json))
  | [] => .ok []
  | (name, part) :: parts => do
    let v ← toJson part
    let others ← toJsonParts parts
    return (name.legible, v) :: others

end

end Document

/-- The written form of a secret, which tells nothing of it. -/
def Secret.document (_ : Secret) : Document := .object []

end SearchConfig
