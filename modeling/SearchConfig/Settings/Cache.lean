import SearchConfig.Settings.Read

/-!
# Kept settings

A process reads its settings once and keeps them until they are cleared, whatever becomes of its
environment in between. Settings that cannot be read are not kept, and settings that are made of
arguments are neither taken from what is kept nor put there.
-/

namespace SearchConfig

/-- The surroundings of a process and the settings that it keeps. -/
structure SettingsCache where
  around : Surroundings
  kept : Option Settings

/-- What a process may do about its settings. -/
inductive SettingsStep where
  | setEnvironment (environment : List (Text × Text))
  | clear
  | get
  | make (arguments : SettingsArguments)

namespace SettingsCache

def start (around : Surroundings) : SettingsCache := ⟨around, none⟩

/-- The settings that are kept, or fresh ones that are kept from now on. -/
def get (c : SettingsCache) : Except SettingsError Settings × SettingsCache :=
  match c.kept with
  | some settings => (.ok settings, c)
  | none =>
    match Settings.fresh c.around with
    | .ok settings => (.ok settings, { c with kept := some settings })
    | .error e => (.error e, c)

/-- Takes a step, which may ask for settings. A new environment takes the place of the old one also
if not all of it can be set. -/
def step (c : SettingsCache) :
    SettingsStep → Option (Except SettingsError Settings) × SettingsCache
  | .setEnvironment environment =>
    let (around, fault) := { c.around with environment := [] }.setVariables environment
    (fault.map fun fault => .error (.unsettable fault), { c with around := around })
  | .clear => (none, { c with kept := none })
  | .get => let (answer, c) := c.get; (some answer, c)
  | .make arguments => (some (Settings.read c.around arguments), c)

/-- The answers to steps that are taken one after the other. -/
def run (c : SettingsCache) : List SettingsStep → List (Option (Except SettingsError Settings))
  | [] => []
  | s :: steps => let (answer, c) := c.step s; answer :: run c steps

end SettingsCache

end SearchConfig
