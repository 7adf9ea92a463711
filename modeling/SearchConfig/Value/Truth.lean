import SearchConfig.Text.Search
import SearchConfig.Value.Basic
import SearchConfig.Value.Misuse

/-!
# Truth and content

Null, zero and whatever is empty count as false and everything else as true. A secret is as long as
its payload, and one whose payload was replaced by something without a length is neither. Paths are
texts.
-/

namespace SearchConfig.Value

/-- How many items a value has. -/
def length : Value → Except Misuse Nat
  | text t => .ok t.length
  | bytes b => .ok b.size
  | buffer b => .ok b.size
  | list items => .ok items.length
  | tuple items => .ok items.length
  | set items => .ok items.length
  | dict entries => .ok entries.length
  | endless _ => .ok 1
  | secret s => .ok s.payload.size
  | record .secret [(_, payload)] => length payload
  | v => .error (.noLength v.typeName)

/-- Does a value count as true? -/
def isTrue : Value → Except Misuse Bool
  | null => .ok false
  | bool b => .ok b
  | int n => .ok (n != 0)
  | float x => .ok !(float x).isZero
  | nan _ => .ok true
  | bare _ => .ok true
  | setter => .ok true
  | again _ => .ok true
  | live _ => .ok true
  | record .secret members => (record .secret members).length.map (· != 0)
  | record _ _ => .ok true
  | v => v.length.map (· != 0)

/-- The complaint about a value that should be a name. -/
def notName : Value → Misuse
  | bytes _ => .textForBytes
  | v => .noMember v.typeName "startswith"

/-- Is the text part of a text, or an item of anything else that is no object? -/
def holdsText (needle : Text) : Value → Except Misuse Bool
  | text t => .ok (Text.occursIn needle t)
  | list items => .ok (items.any (isText needle))
  | tuple items => .ok (items.any (isText needle))
  | set items => .ok (items.any (isText needle))
  | dict entries => .ok (entries.any fun (key, _) => isText needle key)
  | bytes _ => .error .textInBytes
  | buffer _ => .error .textInBytes
  | endless _ => .ok false
  | v => .error (.notSearchable v.typeName)

/-- The text of a path. -/
def path : Value → Except Misuse Text
  | text t => .ok t
  | bytes _ => .error .bytesForPath
  | v => .error (.notPath v.typeName)

end SearchConfig.Value
