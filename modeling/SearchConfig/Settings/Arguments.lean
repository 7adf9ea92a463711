import SearchConfig.Settings.Basic
import SearchConfig.Value.Truth

/-!
# Arguments of a reading

Settings are read with arguments by name. Most give a setting; those with a mark of private names in
front say how to read, and null leaves that as it is by default.
-/

namespace SearchConfig

abbrev SettingsArguments := List (Text × Value)

namespace SettingsArguments

/-- An argument about the reading that is not null. -/
def option? (arguments : SettingsArguments) (name : Text) : Option Value :=
  (Entries.last? name arguments).filter (!·.isNull)

/-- Does an argument about the reading count as true? -/
def isSet (arguments : SettingsArguments) (name : Text) : Bool :=
  ((arguments.option? name).map fun v => v.isTrue.toOption.getD true).getD false

/-- The argument for a setting: the first one of its name in any case. -/
def setting? (arguments : SettingsArguments) (s : Setting) : Option Value :=
  (arguments.find? fun (name, _) => name.lower = s.name).map Prod.snd

/-- The name that is taken by what reads the settings. -/
def ownName : Text := "__pydantic_self__"

/-- Refuses the name that is taken. -/
def check (arguments : SettingsArguments) : Except SettingsError Unit :=
  if arguments.any fun (name, _) => name = ownName then
    .error (.misused (.givenTwice "BaseSettings.__init__()" ownName))
  else .ok ()

end SettingsArguments

end SearchConfig
