import SearchConfig.Proofs.Noninterference

/-!
# Settings without an environment file

Where there is no environment file the settings are those of the variables of the environment and
the defaults (`Settings.fresh_of_missing`), and there are no lines to warn of. Where it cannot be
read no settings are (`Settings.fresh_of_error`).
-/

namespace SearchConfig

variable {around : Surroundings}

namespace EnvFile

theorem statements_nil : statements [] = [] := by
  have hfrom : statementsFrom 1 [] = [] := by
    rw [statementsFrom]
    rfl
  exact hfrom

theorem entries_nil (environment : List (Text × Text)) : entries environment [] = [] := by
  rw [entries, statements_nil, List.foldl_nil]

theorem read_of_missing (h : around.files.read standardName = .error (.system .noSuchFile)) :
    read around .null (.ofText standardName) = .ok [] := by
  have htext : (Path.ofText standardName).toText = standardName := rfl
  rw [read, htext, h]

end EnvFile

namespace Settings

theorem fresh_of_missing
    (h : around.files.read EnvFile.standardName = .error (.system .noSuchFile)) :
    fresh around = match ofSources [ofEnvironment .standard around.environment] with
      | .accepted settings => .ok settings
      | .refused problems => .error (.refused problems) := by
  have hfiles : ∀ s, ofEnvFiles .standard around.environment [[]] s = none := fun s => by
    rw [ofEnvFiles, List.flatMap_cons, EnvFile.entries_nil]
    rfl
  have hsetting : ∀ s, setting [listed [], SettingsArguments.setting? [],
        ofEnvironment .standard around.environment, ofEnvFiles .standard around.environment [[]],
        listed []] s
      = setting [ofEnvironment .standard around.environment] s := fun s => by
    have hlisted : listed [] s = none := rfl
    have harguments : SettingsArguments.setting? [] s = none := rfl
    simp only [setting, List.findSome?_cons, List.findSome?_nil, hlisted, harguments, hfiles]
  have htexts : EnvFile.readAll around [] = .ok [[]] := by
    rw [EnvFile.readAll_nil, EnvFile.read_of_missing h]
    rfl
  have hsources : ofSources [listed [], SettingsArguments.setting? [],
        ofEnvironment .standard around.environment, ofEnvFiles .standard around.environment [[]],
        listed []]
      = ofSources [ofEnvironment .standard around.environment] := by
    simp only [ofSources, hsetting]
  rw [← hsources, fresh, read, htexts]
  rfl

theorem fresh_of_error {e : SettingsError}
    (h : EnvFile.read around .null (.ofText EnvFile.standardName) = .error e) :
    fresh around = .error e := by
  have htexts : EnvFile.readAll around [] = .error e := by
    rw [EnvFile.readAll_nil, h]
    rfl
  rw [fresh, read, htexts]
  rfl

end Settings

theorem Command.warnings_of_missing
    (h : around.files.read EnvFile.standardName = .error (.system .noSuchFile)) :
    warnings around = [] := by
  rw [warnings, EnvFile.brokenLinesOf, EnvFile.read_of_missing h]
  simp only [EnvFile.brokenLines, EnvFile.statements_nil, List.filterMap_nil, List.flatMap_nil]

/-- The surroundings of a process without files and variables. -/
def Surroundings.bare : Surroundings := ⟨⟨[], [], 0⟩, [], []⟩

theorem Settings.fresh_bare :
    Settings.fresh .bare = .ok ⟨"development", "INFO", "config.json"⟩ := by
  rw [Settings.fresh_of_missing rfl]
  rfl

theorem Command.warnings_bare : warnings .bare = [] := warnings_of_missing rfl

end SearchConfig
