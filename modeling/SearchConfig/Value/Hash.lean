import SearchConfig.Value.Basic
import SearchConfig.Value.Misuse

/-!
# Values and their hash codes

What can change has no hash code, and a member of a set or a key of a dictionary that could change
all the same is kept with the code that it had at first. Which code an object has is asked of a rule
for objects.
-/

namespace SearchConfig.Value

mutual

/-- The code of a value, by a rule for the objects in it. -/
def hashCode (ofObject : Handle → Except Misuse HashCode) : Value → Except Misuse HashCode
  | null => .ok .null
  | bool b => .ok (.ofInt b.toInt)
  | int n => .ok (.ofInt n)
  | float x => .ok ((HashCode.ofFloat? x).getD (.own 0))
  | nan mark | bare mark => .ok (.own mark)
  | setter => .ok (.own 0)
  | text t => .ok (.ofContent (HashCode.rawText t))
  | bytes b => .ok (.ofContent b.toList)
  | secret s => .ok (.ofContent s.payload.toList)
  | tuple items => return .mix (← hashCodes ofObject items)
  | live h => ofObject h
  | kept _ v => hashCode ofObject v
  | v => .error (.unhashable v.typeName)

def hashCodes (ofObject : Handle → Except Misuse HashCode) :
    List Value → Except Misuse (List HashCode)
  | [] => .ok []
  | item :: items => do
    let code ← hashCode ofObject item
    return code :: (← hashCodes ofObject items)

end

/-- The code by which a member of a set or a key is found: what cannot change has its code still. -/
def foundBy : Value → Except Misuse HashCode
  | kept code _ => .ok code
  | v => v.hashCode fun h => .ok (.object h)

/-- A member or a key itself. -/
def unkept : Value → Value
  | kept _ v => v
  | v => v

mutual

/-- Is an object part of the value? -/
def hasObject : Value → Bool
  | live _ => true
  | tuple items => haveObject items
  | kept _ v => hasObject v
  | _ => false

def haveObject : List Value → Bool
  | [] => false
  | item :: items => hasObject item || haveObject items

end

/-- A value as a member or a key that has a code. -/
def keptBy (code : HashCode) (v : Value) : Value := if v.hasObject then kept code v else v

end SearchConfig.Value
