import SearchConfig.Log.Record
import SearchConfig.Value.Display

/-!
# Log levels by name

The level from which on records are logged is given by a name in any case.
-/

namespace SearchConfig

/-- The rank from which on records are logged. -/
abbrev Threshold := Nat

namespace CodePoint

/-- The upper case of a letter of ASCII, and of the two letters outside whose upper case is in
ASCII; anything else stays. -/
def upper : CodePoint → CodePoint
  | scalar '\u0131' => scalar 'I'
  | scalar '\u017f' => scalar 'S'
  | scalar c => scalar c.toUpper
  | c => c

end CodePoint

namespace Text

def upper (t : Text) : Text := t.map CodePoint.upper

end Text

namespace Threshold

def names : List (Text × Threshold) := [
  ("CRITICAL", 50), ("FATAL", 50), ("ERROR", 40), ("WARNING", 30), ("WARN", 30), ("INFO", 20),
  ("DEBUG", 10), ("NOTSET", 0)]

def ofName? (name : Text) : Option Threshold := Entries.get? name.upper names

/-- The name of a level in a value. Bytes are taken as they are displayed. -/
def nameIn : Value → Except Misuse Text
  | .text t => .ok t
  | .bytes b => .ok (Value.bytes b).display
  | .buffer b => .ok (Value.buffer b).display
  | v => .error (.noMember v.typeName "upper")

/-- The message for a name that is none of a level. -/
def unknownMessage (name : Text) : Text := "Invalid log level: " ++ name

/-- Is a record of the level logged? -/
def admits (threshold : Threshold) (level : Level) : Bool := threshold ≤ level.rank

end Threshold

end SearchConfig
