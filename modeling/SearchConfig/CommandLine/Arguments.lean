import SearchConfig.Entries
import SearchConfig.Text.Quoted

/-!
# Arguments

Arguments are options and positional arguments. A long option may be followed by `=` and its
value; short options may stand together behind one dash, with a value at the end of them;
otherwise the value is the next argument. Two dashes end the options. Some commands end them at
the first positional argument too.
-/

namespace SearchConfig

inductive Switch where
  | verbose
  | help
  | config
  | line
  deriving DecidableEq

namespace Switch

def takesValue : Switch → Bool
  | verbose => false
  | help => false
  | config => true
  | line => true

end Switch

/-- What is wrong with arguments. -/
inductive UsageFault where
  | noSuchOption (name : Text)
  | valueMissing (name : Text)
  | valueUnwanted (name : Text)
  | noSuchCommand (name : Text)
  | commandMissing
  | argumentMissing (name : Text)
  | argumentsUnexpected (arguments : List Text)
  | invalidInteger (options value : Text)
  deriving DecidableEq

namespace UsageFault

def message : UsageFault → Text
  | noSuchOption name => "No such option " ++ name.quoted ++ "."
  | valueMissing name => "Option " ++ name.quoted ++ " requires an argument."
  | valueUnwanted name => "Option " ++ name.quoted ++ " does not take a value."
  | noSuchCommand name => "No such command " ++ name.quoted ++ "."
  | commandMissing => "Missing command."
  | argumentMissing name => "Missing argument '" ++ name ++ "'."
  | argumentsUnexpected [argument] => "Got unexpected extra argument (" ++ argument ++ ")"
  | argumentsUnexpected arguments =>
    "Got unexpected extra arguments (" ++ Text.join " " arguments ++ ")"
  | invalidInteger options value =>
    "Invalid value for " ++ options ++ ": " ++ value.quoted ++ " is not a valid integer."

/-- Is the usage of the command shown before the message? Not for a fault in the value of an
option. -/
def showsUsage : UsageFault → Bool
  | valueMissing _ => false
  | valueUnwanted _ => false
  | _ => true

end UsageFault

/-- The options of a command, and where they may stand. -/
structure OptionRules where
  switches : List (Text × Switch)
  /-- May options stand behind positional arguments? -/
  interspersed : Bool

structure Arguments where
  /-- The options in the order of the arguments, each with its value or the empty text. -/
  switches : List (Switch × Text)
  positional : List Text

namespace Arguments

def empty : Arguments := ⟨[], []⟩

def dash : CodePoint := .scalar '-'

def withSwitches (switches : List (Switch × Text)) (a : Arguments) : Arguments :=
  { a with switches := switches ++ a.switches }

def withPositional (argument : Text) (a : Arguments) : Arguments :=
  { a with positional := argument :: a.positional }

/-- Options that have been read from one argument; the last may lack its value. -/
structure Cluster where
  switches : List (Switch × Text)
  pending : Option (Switch × Text)

/-- The short options of one argument. -/
def cluster (rules : OptionRules) : Text → Except UsageFault Cluster
  | [] => .ok ⟨[], none⟩
  | c :: t =>
    let name := [dash, c]
    match Entries.get? name rules.switches with
    | none => .error (.noSuchOption name)
    | some switch =>
      if switch.takesValue then
        if t.isEmpty then .ok ⟨[], some (switch, name)⟩ else .ok ⟨[(switch, t)], none⟩
      else (cluster rules t).map fun others =>
        { others with switches := (switch, []) :: others.switches }

/-- The options of one argument that begins with a dash. -/
def options (rules : OptionRules) (argument : Text) : Except UsageFault Cluster :=
  let name := argument.takeWhile (· != .scalar '=')
  let value? :=
    if name.length < argument.length then some (argument.drop (name.length + 1)) else none
  let long := if name.length = 2 then none else Entries.get? name rules.switches
  match long, value? with
  | some switch, some value =>
    if switch.takesValue then .ok ⟨[(switch, value)], none⟩ else .error (.valueUnwanted name)
  | some switch, none =>
    if switch.takesValue then .ok ⟨[], some (switch, name)⟩ else .ok ⟨[(switch, [])], none⟩
  | none, _ =>
    if (argument.drop 1).head? = some dash then .error (.noSuchOption name)
    else cluster rules (argument.drop 1)

/-- Reads the arguments of a command. -/
def read (rules : OptionRules) : List Text → Except UsageFault Arguments
  | [] => .ok empty
  | argument :: rest =>
    if argument = [dash, dash] then .ok ⟨[], rest⟩
    else if argument.head? = some dash ∧ 1 < argument.length then
      match options rules argument with
      | .error fault => .error fault
      | .ok ⟨switches, none⟩ => (read rules rest).map (withSwitches switches)
      | .ok ⟨switches, some (switch, name)⟩ =>
        match rest with
        | [] => .error (.valueMissing name)
        | value :: rest => (read rules rest).map (withSwitches (switches ++ [(switch, value)]))
    else if rules.interspersed then (read rules rest).map (withPositional argument)
    else .ok ⟨[], argument :: rest⟩

/-- Is the option given? -/
def has (a : Arguments) (switch : Switch) : Bool := a.switches.any (·.1 == switch)

/-- The last value that is given to the option. -/
def value? (a : Arguments) (switch : Switch) : Option Text := Entries.last? switch a.switches

end Arguments

end SearchConfig
