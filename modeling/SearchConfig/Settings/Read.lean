import SearchConfig.Settings.SecretFiles
import SearchConfig.Settings.Words

/-!
# Reading settings

A setting is taken from the first source that gives it: the words of a command line, the arguments,
the environment variables, the environment files, the secret files, the default. What is given may
be null, and is refused then.
-/

namespace SearchConfig

namespace Settings

/-- What gives values for settings. -/
abbrev Source := Setting → Option Value

/-- The text that a value stands for: the value must be a text, or bytes of one. -/
def textOf : Value → Decoded Text
  | .text t => .accepted t
  | .bytes b | .buffer b =>
    match Utf8.decode? b with
    | some cs => .accepted (Text.ofChars cs)
    | none => .fail .notUnicode
  | _ => .fail .notText

/-- The value of a setting by its sources, in their order. -/
def setting (sources : List Source) (s : Setting) : Decoded Text :=
  match sources.findSome? (· s) with
  | some v => (textOf v).under (.key s.name)
  | none => .accepted s.default

/-- The settings by their sources. -/
def ofSources (sources : List Source) : Decoded Settings :=
  let given := setting sources
  Settings.mk <$> given .environment <*> given .logLevel <*> given .configPath

/-- What a list gives. -/
def listed (given : List (Setting × Value)) : Source := fun s => Entries.get? s given

/-- What the variables of the environment give. -/
def ofEnvironment (rules : VariableRules) (environment : List (Text × Text)) : Source :=
  rules.given? (rules.counted (Entries.mapValues some environment))

/-- What environment files give by their texts, of which the last one counts most. -/
def ofEnvFiles (rules : VariableRules) (environment : List (Text × Text)) (texts : List Text) :
    Source :=
  rules.given? (texts.flatMap fun t => rules.counted (EnvFile.entries environment t))

/-- Reads the settings. The environment files are read and the command line is taken apart before
the sources are asked in their order. -/
def read (around : Surroundings) (arguments : SettingsArguments) :
    Except SettingsError Settings := do
  arguments.check
  let (rules, isAskable) ← VariableRules.ofArguments arguments
  let texts ← EnvFile.readAll around arguments
  let words ← WordRules.given arguments
  if !isAskable then throw (.unanswered .environment VariableRules.environmentSource)
  let secrets ← SecretFiles.read around rules arguments
  let sources : List Source := [
    listed words,
    arguments.setting?,
    ofEnvironment rules around.environment,
    ofEnvFiles rules around.environment texts,
    listed secrets]
  match ofSources sources with
  | .accepted settings => return settings
  | .refused problems => throw (.refused problems)

/-- Reads the settings without arguments. -/
def fresh (around : Surroundings) : Except SettingsError Settings := read around []

end Settings

end SearchConfig
