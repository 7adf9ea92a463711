import SearchConfig.Log.Console
import SearchConfig.Log.Threshold

/-!
# Rendering log records

A record is written either as a line for people, with its fields in the order of their names, or
as a line of JSON in ASCII, with its fields as they are given. A field may not have the name of a
parameter of the call that makes the record, nor, if the record is logged, of the call that hands
it on. One field stands for a record of another kind, from which the name of the logger would be
taken; no value is such a record.
-/

namespace SearchConfig

inductive Renderer where
  | console
  | json
  deriving DecidableEq

/-- What decides what is logged, and how. -/
structure Logging where
  threshold : Threshold
  renderer : Renderer

namespace LogRecord

mutual

/-- The value with everything that has no JSON form replaced by the text that displays it. -/
def written : Value → Value
  | .list items => .list (writtenItems items)
  | .tuple items => .tuple (writtenItems items)
  | .dict entries => .dict (writtenEntries entries)
  | .null => .null
  | .bool b => .bool b
  | .int n => .int n
  | .float x => .float x
  | .text t => .text t
  | .endless m => .endless m
  | v => .text v.display

def writtenItems : List Value → List Value
  | [] => []
  | item :: items => written item :: writtenItems items

def writtenEntries : List (Value × Value) → List (Value × Value)
  | [] => []
  | (key, v) :: entries => (key, written v) :: writtenEntries entries

end

/-- The fields with those that every record has; an event that is not told is left out. -/
def allFields (timestamp : Text) (r : LogRecord) : List (Text × Value) :=
  let own : List Value := [r.event, .text r.logger, .text r.level.name, .text timestamp]
  ((ownNames.zip own).filter (!·.2.isNull)).foldl
    (fun fields (name, v) => Entries.put name v fields)
    (r.fields.filter fun (name, _) => name != handledField)

/-- The line of JSON. -/
def jsonLine (timestamp : Text) (r : LogRecord) : Except LogFault Text :=
  let entries := (allFields timestamp r).map fun (name, v) => (Value.text name, written v)
  ((Value.dict entries).serialize .spaced).mapError .unserializable

/-- The names that no field may have. -/
def namesTaken : List Text := ["self", "event"]

/-- The name that no field of a record may have that is logged. -/
def nameTakenLater : Text := "method_name"

/-- The first name of a field that is taken. -/
def nameTaken? (r : LogRecord) (admitted : Bool) : Option Text :=
  let names := r.fields.map Prod.fst
  (names.find? namesTaken.contains).or <|
    if admitted && names.contains nameTakenLater then some nameTakenLater else none

/-- The field that stands for another record. -/
def otherRecordField : Text := "_record"

/-- The complaint about a field that should be another record and is none. -/
def otherRecord? (r : LogRecord) : Option Misuse :=
  match r.field? otherRecordField with
  | none | some .null => none
  | some v => some (.noMember v.typeName "name")

end LogRecord

namespace Logging

/-- The configuration for the name of a level, if it is one. -/
def ofName? (name : Text) (json : Bool) : Option Logging :=
  (Threshold.ofName? name).map fun threshold => ⟨threshold, if json then .json else .console⟩

def admits (logging : Logging) (r : LogRecord) : Bool := logging.threshold.admits r.level

/-- The line of a record. -/
def line (logging : Logging) (timestamp : Text) (r : LogRecord) : Except LogFault Text :=
  match r.otherRecord?, logging.renderer with
  | some misuse, _ => .error (.misused misuse)
  | none, .console => r.consoleLine timestamp
  | none, .json => r.jsonLine timestamp

/-- What is written of a record: nothing if it is below the threshold. -/
def entry (logging : Logging) (timestamp : Text) (r : LogRecord) : Except LogFault Text :=
  match r.nameTaken? (logging.admits r) with
  | some name => .error (.nameTaken name (logging.admits r))
  | none => if logging.admits r then (logging.line timestamp r).map (· ++ "\n") else .ok []

/-- What is written of several records, each of which counts for itself. -/
def lines (logging : Logging) (timestamp : Text) (records : List LogRecord) : Text :=
  records.flatMap fun r => (logging.entry timestamp r).toOption.getD []

end Logging

end SearchConfig
