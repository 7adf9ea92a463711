import SearchConfig.Proofs.EmptiedFiles
import SearchConfig.Proofs.ReadBack
import SearchConfig.Proofs.Redacted
import SearchConfig.Proofs.Runs

/-!
# Secrets do not show

Two files that hold the same but for their secrets are loaded alike up to masking, or fail alike
(`Config.load_plant`). Every command shows of a configuration only what its veiled one shows, and the
settings are read from another file. So secrets do not interfere with what is loaded, logged, listed
and printed (`secrets_do_not_interfere`).
-/

namespace SearchConfig

section Load

variable {files : Files} {place : List Text} {a b : ByteArray} {v w : Json}

namespace Config

/-- What is logged of a load does not tell secrets. -/
theorem loadRecords_veiled (name : Text) (loaded : Except LoadError Config) :
    loadRecords name (loaded.map veiled) = loadRecords name loaded := by
  rcases loaded with e | c
  · rfl
  · simp [Except.map, loadRecords, veiled, Entries.mapValues, Function.comp_def, repositoryRecord,
      Repository.veiled]

theorem listing_map_veiled (loaded : Except LoadError Config) :
    (loaded.map veiled).map listing = loaded.map listing := by
  rcases loaded with e | c
  · rfl
  · exact congrArg Except.ok (listing_veiled c)

variable (hat : files.at? place = some (.file a)) (hv : Json.ofBytes? a = some v)
  (hw : Json.ofBytes? b = some w) (h : Json.SameButSecrets v w)

include hat hv hw h

theorem ofFile_plant (path : Path) :
    (ofFile files path).map veiled = (ofFile (files.plant place (.file b)) path).map veiled := by
  by_cases hlocate : files.locate path.toText = .ok place
  · obtain ⟨hread, hread'⟩ := Files.read_plant_of_locate hat b hlocate
    have hdecoded := veiled_ofBytes hv hw h
    rcases ha : Decoded.ofBytes decode a with c | problems <;>
      rcases hb : Decoded.ofBytes decode b with c' | problems' <;> rw [ha, hb] at hdecoded
    · rw [ofFile_of_accepted hread ha, ofFile_of_accepted hread' hb]
      exact congrArg Except.ok (Decoded.accepted.inj hdecoded)
    · cases hdecoded
    · cases hdecoded
    · rw [ofFile_of_refused hread ha, ofFile_of_refused hread' hb, Decoded.refused.inj hdecoded]
  · rw [ofFile, ofFile, Files.read_plant_of_ne hat b hlocate]

/-- Files that hold the same but for their secrets are loaded alike up to masking, or fail alike. -/
theorem load_plant (name : Text) :
    (load files name).map veiled = (load (files.plant place (.file b)) name).map veiled := by
  have hfile := ofFile_plant hat hv hw h (Path.ofText name)
  have hresolve : ∀ dbPath config,
      resolveDbPath (files.plant place (.file b)) dbPath config
        = resolveDbPath files dbPath config := fun dbPath config => by
    simp only [resolveDbPath, Files.canonical_plant hat b]
  rcases ha : ofFile files (Path.ofText name) with e | c <;>
    rcases hb : ofFile (files.plant place (.file b)) (Path.ofText name) with e' | c' <;>
    rw [ha, hb] at hfile
  · rw [load_of_error ha, load_of_error hb]
    exact hfile
  · cases hfile
  · cases hfile
  · have hveiled : c.veiled = c'.veiled := Except.ok.inj hfile
    have hdbPath : c.dbPath = c'.dbPath := by
      simpa only [veiled] using congrArg ConfigOf.dbPath hveiled
    have hnormalized : c.normalized.veiled = c'.normalized.veiled := by
      rw [← normalized_veiled, hveiled, normalized_veiled]
    rw [load_of_ok ha, load_of_ok hb, hresolve, hdbPath]
    rcases resolveDbPath files c'.dbPath (Path.ofText name) with e | found
    · rfl
    · exact congrArg (fun c : Config => Except.ok { c with dbPath := found }) hnormalized

end Config

end Load

namespace Session

theorem overview_veiled (c : Config) : overview c.veiled = overview c := by
  have hlines : (Entries.mapValues Repository.veiled c.sortedRepos).map overviewLine
      = c.sortedRepos.map overviewLine := by
    rw [Entries.mapValues, List.map_map]
    rfl
  rw [overview, Config.sortedRepos_veiled, hlines, overview]
  simp [Config.veiled, Entries.mapValues]

theorem overviewLines_veiled (c : Config) : overviewLines c.veiled = overviewLines c := by
  have hnumbers : overviewNumbers c.veiled = overviewNumbers c := by
    rw [overviewNumbers, Config.sortedRepos_veiled, Entries.mapValues, List.map_map]
    rfl
  rw [overviewLines, overview_veiled, hnumbers, overviewLines]

theorem repos_veiled (s : Session) (c : Config) : s.repos c.veiled = s.repos c := by
  rw [repos, Config.listing_veiled, repos]
  simp [Config.veiled, Entries.mapValues]

theorem url_veiled (s : Session) (repo path : Text) (line : Option Int) (c : Config) :
    s.url repo path line c.veiled = s.url repo path line c := by
  rw [url, Config.veiled, Entries.get?_mapValues, url]
  rcases Entries.get? repo c.repos with _ | r <;> rfl

/-- No command shows the secrets of a configuration. -/
theorem printAnswer_veiled (s : Session) (c : Config) (r : Request) :
    s.printAnswer c.veiled r = s.printAnswer c r := by
  rcases r with _ | _ | ⟨_, repo, path, line⟩
  · exact congrArg (Printout.ofLines s.stderr) (overviewLines_veiled c)
  · exact congrArg Printout.atOnce (repos_veiled s c)
  · exact congrArg Printout.atOnce (url_veiled s repo path line c)

theorem printLoaded_veiled (s : Session) (r : Request) (path : Text)
    (loaded : Except LoadError Config) (records : List LogRecord) :
    s.printLoaded r path (loaded.map Config.veiled, records)
      = s.printLoaded r path (loaded, records) := by
  rcases loaded with (f | fault) | c
  · rfl
  · rfl
  · exact printAnswer_veiled (s.log records) c r

/-- A request is carried out alike if the configuration is loaded alike up to masking. -/
theorem print_of_load {s : Session} {files : Files}
    (h : ∀ name, (Config.load s.files name).map Config.veiled
      = (Config.load files name).map Config.veiled) (r : Request) :
    s.print r = ({ s with files := files } : Session).print r := by
  have hprint : ({ s with files := files } : Session).print r
      = s.printLoaded r (s.configPath r.config) (Config.load files (s.configPath r.config),
        Config.loadRecords (s.configPath r.config) (Config.load files (s.configPath r.config))) :=
    (print_eq _ r).trans (printLoaded_files ..)
  rw [hprint, print_eq, ← printLoaded_veiled, ← Config.loadRecords_veiled, h,
    Config.loadRecords_veiled, printLoaded_veiled]

end Session

section Surroundings

variable {around : Surroundings} {files : Files}

namespace EnvFile

theorem pathOf_standardName (around : Surroundings) :
    around.pathOf (.text standardName) = .ok (.ofText standardName) := rfl

theorem readAll_nil (around : Surroundings) :
    readAll around [] = (read around .null (.ofText standardName)).map fun t => [t] := by
  have hnamed : readAll around [] = [Value.text standardName].mapM
      fun v => around.pathOf v >>= fun path => read around .null path := rfl
  rw [hnamed, List.mapM_cons, List.mapM_nil, pathOf_standardName]
  rcases h : read around .null (.ofText standardName) with e | t <;>
    simp only [bind, Except.bind, h] <;> rfl

theorem read_of_files (h : files.read standardName = around.files.read standardName) :
    read { around with files := files } .null (.ofText standardName)
      = read around .null (.ofText standardName) := by
  have htext : (Path.ofText standardName).toText = standardName := rfl
  rw [read, read, htext, h]

end EnvFile

/-- The settings are read from the files only through the environment file. -/
theorem Settings.fresh_of_files
    (h : files.read EnvFile.standardName = around.files.read EnvFile.standardName) :
    Settings.fresh { around with files := files } = Settings.fresh around := by
  have hsecrets : ∀ around rules, SecretFiles.read around rules [] = .ok [] := fun _ _ => rfl
  simp only [fresh, read, EnvFile.readAll_nil, EnvFile.read_of_files h, hsecrets]

namespace Command

theorem warnings_of_files
    (h : files.read EnvFile.standardName = around.files.read EnvFile.standardName) :
    warnings { around with files := files } = warnings around := by
  rw [warnings, EnvFile.brokenLinesOf, EnvFile.read_of_files h, warnings, EnvFile.brokenLinesOf]

theorem session_of_files
    (h : files.read EnvFile.standardName = around.files.read EnvFile.standardName)
    (timestamp : Text) (verbose : Bool) :
    session { around with files := files } timestamp verbose
      = (session around timestamp verbose).map fun s => { s with files := files } := by
  rw [session, session, warnings_of_files h, Settings.fresh_of_files h]
  rcases Settings.fresh around with e | settings
  · rfl
  · simp only []
    split <;> rfl

/-- A run depends on the files through what is loaded from them up to masking and on the environment
file. -/
theorem print_of_files
    (hload : ∀ name, (Config.load around.files name).map Config.veiled
      = (Config.load files name).map Config.veiled)
    (henv : files.read EnvFile.standardName = around.files.read EnvFile.standardName)
    (timestamp : Text) (arguments : List Text) :
    print around timestamp arguments = print { around with files := files } timestamp arguments := by
  rw [print, prepare, print, prepare]
  rcases select arguments with outcome | ⟨a, c, rest⟩
  · rfl
  · simp only [bind, Except.bind, session_of_files henv]
    rcases hs : session around timestamp (a.has .verbose) with outcome | s
    · rfl
    · have hrequest : ({ s with files := files } : Session).request c rest = s.request c rest := rfl
      simp only [Except.map, hrequest]
      rcases s.request c rest with outcome | r
      · rfl
      · exact Session.print_of_load (files_of_session hs ▸ hload) r

end Command

end Surroundings

/-- Let two files hold values that are the same but for the secrets in them. Then what is loaded is
the same up to masking or fails alike, logs the same and is listed in the same way, and if the file
is not the environment file then every run of the program is the same. -/
theorem secrets_do_not_interfere {files : Files} {place : List Text} {a b : ByteArray} {v w : Json}
    (hat : files.at? place = some (.file a)) (hv : Json.ofBytes? a = some v)
    (hw : Json.ofBytes? b = some w) (h : Json.SameButSecrets v w) :
    let files' := files.plant place (.file b)
    (∀ name, (Config.load files name).map Config.veiled = (Config.load files' name).map Config.veiled
      ∧ (Config.load files name).map Config.listing = (Config.load files' name).map Config.listing
      ∧ Config.loadRecords name (Config.load files name)
        = Config.loadRecords name (Config.load files' name))
    ∧ (files.locate EnvFile.standardName ≠ .ok place → ∀ environment homes timestamp arguments,
      Command.print ⟨files, environment, homes⟩ timestamp arguments
        = Command.print ⟨files', environment, homes⟩ timestamp arguments) := by
  intro files'
  have hload := Config.load_plant hat hv hw h
  refine ⟨fun name => ⟨hload name, ?_, ?_⟩, fun henv environment homes timestamp arguments => ?_⟩
  · rw [← Config.listing_map_veiled, hload, Config.listing_map_veiled]
  · rw [← Config.loadRecords_veiled, hload, Config.loadRecords_veiled]
  · exact @Command.print_of_files ⟨files, environment, homes⟩ files' hload
      (Files.read_plant_of_ne hat b henv) timestamp arguments

/-- A configuration with one repository, which has the given secret. -/
def Json.withSecret (secret : Json) : Json :=
  .object [("repos".toList, .object [("r".toList,
    .object [("url".toList, .string ['u']), ("vcs-config".toList, secret)])])]

theorem secrets_do_not_interfere_single :
    Command.print ⟨.single "config.json" (Json.withSecret (.string ['s'])).toBytes, [], []⟩ []
        ["repos"]
      = Command.print ⟨(Files.single "config.json" (Json.withSecret (.string ['s'])).toBytes).plant
        ["config.json"] (.file (Json.withSecret (.array [.int 1])).toBytes), [], []⟩ []
        ["repos"] := by
  have hplace : (Files.single "config.json" (Json.withSecret (.string ['s'])).toBytes).at?
      ["config.json"] = some (.file (Json.withSecret (.string ['s'])).toBytes) := rfl
  have hv : Json.ofBytes? (Json.withSecret (.string ['s'])).toBytes
      = some (Json.withSecret (.string ['s'])) :=
    Json.ofBytes?_toBytes (by simp [Json.withSecret, Json.Each, Json.EachEntry, Json.ReadsBack])
      (by decide)
  have hw : Json.ofBytes? (Json.withSecret (.array [.int 1])).toBytes
      = some (Json.withSecret (.array [.int 1])) :=
    Json.ofBytes?_toBytes (by simp [Json.withSecret, Json.Each, Json.EachEntry, Json.EachItem,
      Json.ReadsBack, Digits.isWritable]; decide) (by decide)
  have henv : (Files.single "config.json" (Json.withSecret (.string ['s'])).toBytes).locate
      EnvFile.standardName ≠ .ok ["config.json"] := by decide
  exact (secrets_do_not_interfere hplace hv hw rfl).2 henv [] [] [] ["repos"]

end SearchConfig
