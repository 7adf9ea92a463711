import SearchConfig.Settings.Arguments
import SearchConfig.Settings.EnvFile

/-!
# Variables

A setting may be given by a variable of its name with a lead in front, as a rule without regard to
case. It may be asked that empty values count as none and that a text stands for null.
-/

namespace SearchConfig

/-- How variables give settings. -/
structure VariableRules where
  /-- What stands in front of the names of settings. -/
  lead : Text
  /-- Are names compared with regard to case? -/
  exact : Bool
  ignoresEmpty : Bool
  /-- The value that stands for null. -/
  nullText : Option Text

namespace VariableRules

def standard : VariableRules := ⟨"HOUND_", false, false, none⟩

/-- A name in the form in which names are compared. -/
def form (rules : VariableRules) (name : Text) : Text := if rules.exact then name else name.lower

/-- The name of the variable of a setting. -/
def variableName (rules : VariableRules) (s : Setting) : Text := rules.form (rules.lead ++ s.name)

/-- The variables that count, with what their values stand for. A variable that is only listed has
none. -/
def counted (rules : VariableRules) (entries : List (Text × Option Text)) :
    List (Text × Option Value) :=
  (entries.filter fun (_, value) => !(rules.ignoresEmpty && value == some [])).map
    fun (name, value) =>
      (name, value.map fun t => if rules.nullText = some t then Value.null else .text t)

/-- What the last variable of a setting gives. -/
def given? (rules : VariableRules) (entries : List (Text × Option Value)) (s : Setting) :
    Option Value :=
  let formed := entries.map fun (name, value) => (rules.form name, value)
  (Entries.last? (rules.variableName s) formed).join

/-- The name of the source that the variables of the environment are. -/
def environmentSource : Text := "EnvSettingsSource"

/-- Refuses to cut names by what is no number. -/
def checkCut (arguments : SettingsArguments) : Except SettingsError Unit :=
  match arguments.option? "_env_nested_max_split" with
  | none => .ok ()
  | some v =>
    if v.number?.isSome ∨ v.isTrue.toOption = some false then .ok ()
    else .error (.uncuttable v.typeName)

/-- The rules that arguments ask for, and whether the lead can stand in front of names. -/
def ofArguments (arguments : SettingsArguments) : Except SettingsError (VariableRules × Bool) := do
  checkCut arguments
  let rules (lead : Text) : VariableRules := {
    lead
    exact := arguments.isSet "_case_sensitive"
    ignoresEmpty := arguments.isSet "_env_ignore_empty"
    nullText := (arguments.option? "_env_parse_none_str").bind Value.text? }
  match arguments.option? "_env_prefix" with
  | none => return (rules standard.lead, true)
  | some (.text lead) => return (rules lead, true)
  | some v =>
    let _ ← v.length.mapError .misused
    return (rules [], false)

end VariableRules

end SearchConfig
