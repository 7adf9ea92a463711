import SearchConfig.Value.Misuse
import SearchConfig.Value.Serialize

/-!
# Log records

What happens is logged as records: an event with fields, at a level, by a named logger. A record
cannot be written if one of its fields has a name that is taken or a value that has no text.
-/

namespace SearchConfig

inductive Level where
  | debug
  | info
  | warning
  | error
  | critical
  deriving DecidableEq

namespace Level

/-- The rank of a level; a threshold is a number on the same scale. -/
def rank : Level → Nat
  | debug => 10
  | info => 20
  | warning => 30
  | error => 40
  | critical => 50

def name : Level → Text
  | debug => "debug"
  | info => "info"
  | warning => "warning"
  | error => "error"
  | critical => "critical"

end Level

structure LogRecord where
  level : Level
  logger : Text
  /-- What happened, told by a text as a rule, or null where nothing is told. -/
  event : Value
  fields : List (Text × Value)

namespace LogRecord

def field? (r : LogRecord) (name : Text) : Option Value := Entries.get? name r.fields

end LogRecord

/-- Why a record cannot be written. -/
inductive LogFault where
  /-- A field has a name of the call itself; `admitted` says whether the record is logged at all. -/
  | nameTaken (name : Text) (admitted : Bool)
  | misused (misuse : Misuse)
  | unserializable (fault : SerializeFault)
  deriving DecidableEq

end SearchConfig
