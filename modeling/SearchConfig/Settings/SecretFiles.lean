import SearchConfig.Settings.EnvFiles

/-!
# Secret files

A setting may be given by a file in a directory that has the name of its variable, without the
blanks around its text. Of several directories the last one counts most. Directories that are
missing are passed over, and so is what is no file.
-/

namespace SearchConfig

namespace SecretFiles

def argumentName : Text := "_secrets_dir"

/-- The name of the source that secret files are. -/
def source : Text := "SecretsSettingsSource"

/-- Is there anything at a path? -/
def isPresent (around : Surroundings) (path : Path) : Except SettingsError Bool :=
  match around.files.locate path.toText with
  | .ok place => .ok (around.files.at? place).isSome
  | .error (.system .nameTooLong) => .error (.nameTooLong path.toText)
  | .error _ => .ok false

/-- The names in a directory, if a path leads to one. -/
def names? (around : Surroundings) (path : Path) : Option (List Text) :=
  match around.files.locate path.toText with
  | .ok place =>
    match around.files.at? place with
    | some (.directory entries) => some (entries.map Prod.fst)
    | _ => none
  | .error _ => none

/-- The directories that arguments name, each with the names in it. -/
def directories (around : Surroundings) (arguments : SettingsArguments) :
    Except SettingsError (List (Path × List Text)) := do
  let named := (arguments.option? argumentName).getD .null
  let paths ← (← (EnvFile.namedIn named).mapError .misused).mapM around.pathOf
  let present ← paths.filterM (isPresent around)
  present.mapM fun path =>
    match names? around path with
    | some names => .ok (path, names)
    | none => .error .noDirectory

/-- The text without the blanks around it. -/
def trim (t : Text) : Text := EnvFile.trimEnd (t.dropWhile CodePoint.isBlank)

/-- What the secret file of a setting gives, of the directories from the last one on. -/
def given? (around : Surroundings) (rules : VariableRules) (s : Setting) :
    List (Path × List Text) → Except SettingsError (Option Value)
  | [] => .ok none
  | (path, names) :: directories =>
    match names.find? fun name => rules.form name = rules.variableName s with
    | none => given? around rules s directories
    | some name =>
      match around.files.read (path.append ⟨.relative, [name]⟩).toText with
      | .error _ => given? around rules s directories
      | .ok bytes =>
        match Encoding.utf8.decode bytes with
        | .ok t => .ok (some (.text (trim (EnvFile.unifyLines t))))
        | .error _ => .error (.unanswered s source)

/-- What the secret files give for each setting. -/
def read (around : Surroundings) (rules : VariableRules) (arguments : SettingsArguments) :
    Except SettingsError (List (Setting × Value)) := do
  let directories ← directories around arguments
  let given ← Setting.all.mapM fun s => do
    return (← given? around rules s directories.reverse).map fun v => (s, v)
  return given.filterMap id

end SecretFiles

end SearchConfig
