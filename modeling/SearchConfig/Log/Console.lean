import SearchConfig.Log.Record
import SearchConfig.Value.Display
import SearchConfig.Value.Truth

/-!
# Log lines for people

A record is a line of its time, level, event and logger, with its fields behind them in the order of
their names; only a field without a name stands in front. The names that every record gives itself
cannot be given by a field; a stack and an exception stand below the line, and a field that would
only name the exception being handled is left out.
-/

namespace SearchConfig

namespace LogRecord

/-- The names under which every record has its own event, logger, level and time. -/
def ownNames : List Text := ["event", "logger", "level", "timestamp"]

/-- The field of the exception being handled. None is ever handled where a record is made. -/
def handledField : Text := "exc_info"

def loggerNameField : Text := "logger_name"

def stackField : Text := "stack"

def exceptionField : Text := "exception"

/-- The name of the field that stands in front of the line. -/
def foremostField : Text := []

/-- The names of fields that do not stand among the others on a line. -/
def namesApart : List Text :=
  [foremostField, handledField, loggerNameField, stackField, exceptionField] ++ ownNames

/-- Must the text be quoted to be told from the rest of the line? -/
def needsQuotes (t : Text) : Bool :=
  t.any fun c => ([' ', '\t', '=', '\r', '\n', '"', '\''] : List Char).any (c == .scalar ·)

/-- A value on the line. -/
def consoleValue : Value → Text
  | .text t => if needsQuotes t then t.quoted else t
  | v => v.display

/-- A field on the line. -/
def consoleField : Text × Value → Text
  | (name, v) => name ++ "=" ++ consoleValue v

/-- The fields among the others, in the order of their names. -/
def consoleFields (r : LogRecord) : List (Text × Value) :=
  (r.fields.filter fun (name, _) => !namesApart.contains name).mergeSort fun a b => a.1.le b.1

/-- The field in front of the line. -/
def foremost (r : LogRecord) : Text :=
  (r.field? foremostField).elim [] fun v => consoleField (foremostField, v) ++ [.scalar ' ']

/-- The name of a second logger. -/
def secondLogger (r : LogRecord) : Text :=
  (r.field? loggerNameField).elim [] fun v => " [" ++ v.shown ++ "]"

/-- The event in its column. -/
def consoleEvent (r : LogRecord) : Text :=
  if r.event.isNull then [] else r.event.shown.padRight 30 ++ " "

/-- The line itself. -/
def consoleHead (timestamp : Text) (r : LogRecord) : Text :=
  r.foremost ++ timestamp ++ " [" ++ r.level.name.padRight 9 ++ "] " ++ r.consoleEvent ++ "["
    ++ r.logger ++ "]" ++ r.secondLogger ++ r.consoleFields.flatMap fun field =>
      .scalar ' ' :: consoleField field

/-- The text of a field that stands below the line, if there is one. -/
def below (r : LogRecord) (name : Text) : Except LogFault (Option Text) :=
  match r.field? name with
  | none | some .null => .ok none
  | some (.text t) => .ok (some t)
  | some v => .error (.misused (.notConcatenable v.typeName))

/-- Is the record said to be of an exception being handled? -/
def handles (r : LogRecord) : Except LogFault Bool :=
  (((r.field? handledField).getD .null).isTrue).mapError .misused

def newline : CodePoint := .scalar '\n'

/-- What stands between a stack and an exception. -/
def rule : Text := "\n\n" ++ Text.repeated '=' 79 ++ "\n"

/-- What stands below the line. The rule is drawn also for an exception without a text. -/
def consoleTail (stack exception : Option Text) (handles : Bool) : Text :=
  let underStack : Text := if handles || exception.isSome then rule else []
  let above : Text := stack.elim [] fun t => newline :: (t ++ underStack)
  above ++ exception.elim [] fun t => newline :: t

/-- The line with what stands below it. -/
def consoleLine (timestamp : Text) (r : LogRecord) : Except LogFault Text := do
  let unshown := [handledField, stackField, exceptionField] ++ ownNames
  let shown := r.fields.filter fun (name, _) => !unshown.contains name
  if !(r.event :: shown.map Prod.snd).all Value.isDisplayable then
    throw (.unserializable .tooManyDigits)
  let stack ← r.below stackField
  let exception ← r.below exceptionField
  return r.consoleHead timestamp ++ consoleTail stack exception (← r.handles)

end LogRecord

end SearchConfig
