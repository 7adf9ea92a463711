import SearchConfig.Value.Payload
import SearchConfig.Workspace.Part
import SearchConfig.Workspace.Telling
import SearchConfig.Workspace.Written

/-!
# Actions on a workspace

An action works on the objects of a workspace and tells something about them. One that fails says
why; what it changed before stays changed.
-/

namespace SearchConfig

/-- Why an action failed. -/
inductive ActionError where
  | unbound (name : Text)
  | refused (problems : List Problem)
  /-- A failure, with its details as they are told. -/
  | failure (f : Failure) (details : List (Text × Value))
  /-- A repository map of so many entries cannot be written. -/
  | unlistable (count : Nat) (fault : WriteFault)
  | unwritable (fault : WriteFault)
  /-- A value cannot be given as one without objects. -/
  | unreadable (fault : FormFault)
  | notCaptured (fault : CaptureFault)
  | noPayload (fault : PayloadFault)
  | longNumber
  | misused (misuse : Misuse)

/-- A secret as it shows itself: its payload and how long that is. -/
structure Inspection where
  payload : Value
  length : Nat

/-- What an action tells. -/
inductive Reply where
  | value (v : Value)
  | inspection (i : Inspection)

abbrev Action := ExceptT ActionError (StateM Workspace)

/-- What is logged of an action. -/
def ActionError.records : ActionError → List LogRecord
  | unlistable _ fault => [Config.unlistableRecord fault.message]
  | _ => []

namespace Workspace

/-- An action that only makes new objects. -/
def making {α : Type} (make : StateM Workspace α) : Action α := liftM make

def object (name : Text) : Action Handle := do
  match (← get).lookup? name with
  | some h => return h
  | none => throw (.unbound name)

def accepted {α : Type} : Decoded α → Action α
  | .accepted a => pure a
  | .refused problems => throw (.refused problems)

/-- Gives up if a value is misused. -/
def used {α : Type} : Except Misuse α → Action α
  | .ok a => pure a
  | .error misuse => throw (.misused misuse)

/-- What a value is at this moment. -/
def now (v : Value) : Action Value := return (← get).snapshot v

/-- A value as it is told at this moment. -/
def telling (v : Value) : Action Value := do
  match (← get).told v with
  | .ok v => return v
  | .error .longNumber => throw .longNumber
  | .error (.misused misuse) => throw (.misused misuse)

/-- Tells a value. -/
def tell (v : Value) : Action Reply := return .value (← telling v)

/-- Names an object and tells its value. -/
def keep (name : Text) (h : Handle) : Action Reply := do
  modify (·.bind name h)
  tell (.live h)

/-- The value of a member, which must be one. -/
def readMember (v : Value) (name : Text) : Action Value := do used ((← get).memberValue v name)

/-- Makes sure that a value has something to be called under a name. -/
def callable (v : Value) (name : Text) : Action Unit := do used ((← get).call v name)

end Workspace

end SearchConfig
