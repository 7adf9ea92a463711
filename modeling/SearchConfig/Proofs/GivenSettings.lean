import SearchConfig.Proofs.EnvFileValues
import SearchConfig.Proofs.FailingLoads

/-!
# Where settings come from

Unless an argument says how to read them, settings come from four sources: the arguments, the
variables of the environment, the assignments of the environment file and the defaults. The first
source that names a setting gives its value, in whatever case it is named, and what else stands in
the sources does not matter (`Settings.read_precedence`). A run of the program takes its
configuration from the file that it is given, or else from the one that the settings name.
-/

namespace SearchConfig

namespace Entries

/-- The last value of what a key is taken to. -/
theorem last?_map {κ κ' α : Type} [BEq κ'] (f : κ → κ') (key : κ') (entries : List (κ × α)) :
    last? key (entries.map (Prod.map f id))
      = (entries.filter fun (k, _) => f k == key).getLast?.map Prod.snd := by
  induction entries using List.reverseRecOn with
  | nil => rfl
  | append_singleton entries entry ih =>
    obtain ⟨k, v⟩ := entry
    rw [List.map_append, List.map_singleton, Prod.map_apply, last?_append_singleton, ih,
      List.filter_append]
    rcases hk : f k == key
    · simp [hk]
    · simp [hk]

end Entries

/-! ## Arguments that say how to read -/

namespace SettingsArguments

/-- The names of the arguments that say how settings are read. -/
def directions : List Text :=
  [ownName, "_env_nested_max_split", "_case_sensitive", "_env_ignore_empty",
    "_env_parse_none_str", "_env_prefix", EnvFile.argumentName, EnvFile.encodingName,
    WordRules.argumentName, SecretFiles.argumentName]

/-- Does no argument say how to read? -/
def AreGiven (arguments : SettingsArguments) : Prop :=
  ∀ name ∈ Entries.keys arguments, name ∉ directions

variable {arguments : SettingsArguments}

theorem last?_of_areGiven (h : arguments.AreGiven) {name : Text} (hname : name ∈ directions) :
    Entries.last? name arguments = none :=
  Entries.last?_eq_none fun hmem => h name hmem hname

theorem option?_of_areGiven (h : arguments.AreGiven) {name : Text} (hname : name ∈ directions) :
    arguments.option? name = none := by
  rw [option?, last?_of_areGiven h hname]
  rfl

theorem isSet_of_areGiven (h : arguments.AreGiven) {name : Text} (hname : name ∈ directions) :
    arguments.isSet name = false := by
  rw [isSet, option?_of_areGiven h hname]
  rfl

theorem check_of_areGiven (h : arguments.AreGiven) : arguments.check = .ok () := by
  rw [check, if_neg]
  intro hany
  obtain ⟨⟨name, v⟩, hmem, hname⟩ := List.any_eq_true.1 hany
  obtain rfl : name = ownName := by simpa using hname
  exact h ownName (List.mem_map.2 ⟨_, hmem, rfl⟩) (by simp [directions])

end SettingsArguments

namespace Settings

open SettingsArguments (directions option?_of_areGiven isSet_of_areGiven last?_of_areGiven)

variable {around : Surroundings} {arguments : SettingsArguments}

/-- The standard rules are those that count where no argument asks for others. -/
theorem rules_of_areGiven (h : arguments.AreGiven) :
    VariableRules.ofArguments arguments = .ok (.standard, true) := by
  have hcut : VariableRules.checkCut arguments = .ok () := by
    rw [VariableRules.checkCut, option?_of_areGiven h (by simp [directions])]
  have hlead : arguments.option? "_env_prefix" = none :=
    option?_of_areGiven h (by simp [directions])
  have hnull : arguments.option? "_env_parse_none_str" = none :=
    option?_of_areGiven h (by simp [directions])
  rw [VariableRules.ofArguments, hcut, hlead, hnull, isSet_of_areGiven h (by simp [directions]),
    isSet_of_areGiven h (by simp [directions])]
  rfl

theorem readAll_of_areGiven (h : arguments.AreGiven) :
    EnvFile.readAll around arguments = EnvFile.readAll around [] := by
  have hnone : ∀ name : Text, Entries.last? name ([] : SettingsArguments) = none := fun _ => rfl
  rw [EnvFile.readAll, EnvFile.readAll, last?_of_areGiven h (by simp [directions]),
    last?_of_areGiven h (by simp [directions]), hnone, hnone]

theorem words_of_areGiven (h : arguments.AreGiven) : WordRules.given arguments = .ok [] := by
  rw [WordRules.given, option?_of_areGiven h (by simp [directions])]
  rfl

theorem secrets_of_areGiven (h : arguments.AreGiven) (rules : VariableRules) :
    SecretFiles.read around rules arguments = .ok [] := by
  rw [SecretFiles.read, SecretFiles.directories, option?_of_areGiven h (by simp [directions])]
  rfl

/-- Where no argument says how to read, the settings come from the arguments, the environment, the
standard environment file and the defaults. -/
theorem read_of_areGiven (h : arguments.AreGiven) {t : Text}
    (hfile : EnvFile.read around .null (.ofText EnvFile.standardName) = .ok t) :
    read around arguments = match ofSources [listed [], arguments.setting?,
        ofEnvironment .standard around.environment,
        ofEnvFiles .standard around.environment [t], listed []] with
      | .accepted settings => .ok settings
      | .refused problems => .error (.refused problems) := by
  have htexts : EnvFile.readAll around arguments = .ok [t] := by
    rw [readAll_of_areGiven h, EnvFile.readAll_nil, hfile]
    rfl
  rw [read, SettingsArguments.check_of_areGiven h, rules_of_areGiven h, htexts, words_of_areGiven h]
  simp only [bind, Except.bind, secrets_of_areGiven h]
  rfl

end Settings

/-! ## What the sources give -/

/-- The name of the variable of a setting, as it is usually written. -/
def Setting.variable (s : Setting) : Text := VariableRules.standard.lead ++ s.name

theorem VariableRules.given?_standard (entries : List (Text × Option Text)) (s : Setting) :
    standard.given? (standard.counted entries) s
      = (Entries.last? s.variable.lower (entries.map (Prod.map Text.lower id))).join.map .text := by
  have hvalue : ∀ t : Text, (if standard.nullText = some t then Value.null else .text t)
      = .text t := fun t => if_neg (by simp [standard])
  have hform : ∀ name, standard.form name = name.lower := fun _ => rfl
  have hcounted : standard.counted entries
      = entries.map fun entry => (entry.1, entry.2.map .text) := by
    have hall : (entries.filter fun entry => !(standard.ignoresEmpty && entry.2 == some []))
        = entries := List.filter_eq_self.2 fun _ _ => rfl
    simp only [counted, hvalue, hall]
  have hformed : (entries.map fun entry => (entry.1, entry.2.map Value.text)).map
        (fun entry => (entry.1.lower, entry.2))
      = (entries.map (Prod.map Text.lower id)).map fun entry => (entry.1, entry.2.map .text) := by
    rw [List.map_map, List.map_map]
    rfl
  have hlast := Entries.last?_mapWithKey (fun _ value => Option.map Value.text value) s.variable.lower
    (entries.map (Prod.map Text.lower id))
  have hname : standard.variableName s = s.variable.lower := rfl
  simp only [given?, hcounted, hform, hformed, hname, hlast]
  rcases Entries.last? s.variable.lower (entries.map (Prod.map Text.lower id)) with _ | _ | _ <;> rfl

namespace Settings

/-- The entries that have a name in any case. -/
def alike (name : Text) (entries : List (Text × Text)) : List (Text × Text) :=
  entries.filter fun (key, _) => key.lower == name.lower

/-- What stands for a setting in the first source that names it: the first argument, the variable of
the environment, the last assignment of the environment file, or else the default. -/
def chosen (arguments environment assignments : List (Text × Text)) (s : Setting) : Text :=
  (((alike s.name arguments).head?.or (alike s.variable environment).head?).or
    (alike s.variable assignments).getLast?).elim s.default Prod.snd

/-- The text of a setting. -/
def get (settings : Settings) : Setting → Text
  | .environment => settings.environment
  | .logLevel => settings.logLevel
  | .configPath => settings.configPath

theorem setting?_texts (arguments : List (Text × Text)) (s : Setting) :
    SettingsArguments.setting? (Entries.mapValues .text arguments) s
      = (alike s.name arguments).head?.map fun entry => .text entry.2 := by
  have hlower : s.name.lower = s.name := by cases s <;> decide +kernel
  have hfind : (fun entry : Text × Text => decide (entry.1.lower = s.name))
      = fun entry => entry.1.lower == s.name :=
    funext fun entry => (beq_eq_decide entry.1.lower s.name).symm
  rw [SettingsArguments.setting?, Entries.mapValues, List.find?_map, alike, List.head?_filter,
    Option.map_map, hlower, ← hfind]
  rfl

theorem ofEnvironment_standard {environment : List (Text × Text)}
    (hnodup : (environment.map fun (name, _) => name.lower).Nodup) (s : Setting) :
    ofEnvironment .standard environment s
      = (alike s.variable environment).head?.map fun entry => .text entry.2 := by
  have hkeys : (Entries.keys (environment.map (Prod.map Text.lower id))).Nodup := by
    rw [Entries.keys, List.map_map]
    exact hnodup
  have hsome : (Entries.mapValues some environment).map (Prod.map Text.lower id)
      = Entries.mapValues some (environment.map (Prod.map Text.lower id)) := by
    simp only [Entries.mapValues, List.map_map]
    rfl
  have hlast : ∀ key : Text, Entries.last? key
        (Entries.mapValues some (environment.map (Prod.map Text.lower id)))
      = (Entries.get? key (environment.map (Prod.map Text.lower id))).map some := fun key => by
    rw [← Entries.last?_eq_get? hkeys]
    exact Entries.last?_mapWithKey (fun _ => some) key _
  have hfind : (environment.map (Prod.map Text.lower id)).find?
        (fun (key, _) => key == s.variable.lower)
      = (alike s.variable environment).head?.map (Prod.map Text.lower id) := by
    rw [List.find?_map, alike, List.head?_filter]
    rfl
  rw [ofEnvironment, VariableRules.given?_standard, hsome, hlast, Entries.get?, hfind]
  rcases (alike s.variable environment).head? with _ | entry <;> rfl

theorem ofEnvFiles_standard {t : Text} (hdollar : EnvFile.dollar ∉ t)
    (hnames : EnvFile.HasClearNames t) (environment : List (Text × Text)) (s : Setting) :
    ofEnvFiles .standard environment [t] s
      = (alike s.variable (EnvFile.assignments t)).getLast?.map fun entry => .text entry.2 := by
  rw [ofEnvFiles, List.flatMap_singleton, VariableRules.given?_standard,
    EnvFile.last?_entries hdollar hnames, Entries.last?_map, Option.map_map]
  rfl

/-- Are the sources of settings these: arguments none of which says how to read, variables of
different names, and the text of an environment file with clear names and no references? -/
structure AreGivenBy (around : Surroundings) (arguments : List (Text × Text)) (t : Text) : Prop where
  arguments : SettingsArguments.AreGiven (Entries.mapValues .text arguments)
  environment : (around.environment.map fun (name, _) => name.lower).Nodup
  file : EnvFile.read around .null (.ofText EnvFile.standardName) = .ok t
  dollar : EnvFile.dollar ∉ t
  names : EnvFile.HasClearNames t

variable {around : Surroundings} {arguments : List (Text × Text)} {t : Text}

theorem AreGivenBy.withoutArguments (h : AreGivenBy around arguments t) : AreGivenBy around [] t :=
  { h with arguments := fun _ hname => absurd hname List.not_mem_nil }

/-- Each setting is what the first source that names it gives. -/
theorem AreGivenBy.exists_read (h : AreGivenBy around arguments t) :
    ∃ settings, read around (Entries.mapValues .text arguments) = .ok settings
      ∧ ∀ s, settings.get s
        = chosen arguments around.environment (EnvFile.assignments t) s := by
  have hsetting : ∀ s, setting [listed [],
        SettingsArguments.setting? (Entries.mapValues .text arguments),
        ofEnvironment .standard around.environment,
        ofEnvFiles .standard around.environment [t], listed []] s
      = .accepted (chosen arguments around.environment (EnvFile.assignments t) s) := fun s => by
    have hlisted : listed [] s = none := rfl
    simp only [setting, List.findSome?_cons, List.findSome?_nil, hlisted, setting?_texts,
      ofEnvironment_standard h.environment, ofEnvFiles_standard h.dollar h.names, chosen]
    -- Each source has the setting or not, and the first that has it decides.
    rcases (alike s.name arguments).head? with _ | _ <;>
      rcases (alike s.variable around.environment).head? with _ | _ <;>
      rcases (alike s.variable (EnvFile.assignments t)).getLast? with _ | _ <;> rfl
  rw [read_of_areGiven h.arguments h.file]
  simp only [ofSources, hsetting]
  refine ⟨_, rfl, fun s => ?_⟩
  cases s <;> rfl

end Settings

/-! ## The file of a run -/

namespace Session

theorem configPath_eq (s : Session) (config : Option Text) :
    s.configPath config = (config.filter fun path => !path.isEmpty).getD s.settings.configPath := by
  rcases config with _ | _ | _ <;> rfl

end Session

/-- A request is carried out with the files and the settings of the surroundings. -/
theorem Command.of_prepare {around : Surroundings} {timestamp : Text} {words : List Text}
    {s : Session} {r : Request} (h : prepare around timestamp words = .ok (s, r))
    {settings : Settings} (hfresh : Settings.fresh around = .ok settings) :
    s.files = around.files ∧ s.settings = settings := by
  obtain ⟨_, hprepare, -⟩ | ⟨_, _, _, _, _, -, hsession, -, hprepare⟩ :=
    prepare_cases around timestamp words <;> rw [hprepare] at h
  · cases h
  obtain ⟨rfl, rfl⟩ := Prod.mk.inj (Except.ok.inj h)
  exact ⟨files_of_session hsession, settings_of_session hfresh hsession⟩

namespace Invocation

/-- The words of a command that may name a configuration, and the request that they make. -/
def wordsNaming (i : Invocation) : Option Text → List Text
  | none => i.plainWords
  | some config => i.words config

def requestNaming (i : Invocation) (line : Option Int) : Option Text → Request
  | none => i.plainRequest line
  | some config => i.request config line

theorem config_requestNaming (i : Invocation) (line : Option Int) (config : Option Text) :
    (i.requestNaming line config).config = config := by
  rcases config with _ | config <;> cases i <;> rfl

theorem prepare_wordsNaming (around : Surroundings) (timestamp : Text) {front : List Text}
    (hfront : ∀ word ∈ front, word ∈ Command.verboseNames) {i : Invocation} {line : Option Int}
    (hi : i.IsSound line) {config : Option Text}
    (hconfig : ∀ path ∈ config, path.head? ≠ some Arguments.dash) :
    Command.prepare around timestamp (front ++ i.wordsNaming config)
      = (Command.session around timestamp (!front.isEmpty)).map
        fun s => (s, i.requestNaming line config) := by
  rcases config with _ | config
  · exact prepare_plainWords hfront hi
  · exact prepare_words hfront hi (hconfig config rfl)

end Invocation

open Settings in
/-- A prepared run prints the answer from what is loaded from the file that its request names, unless
that name is empty, or else from the one that the settings name. -/
theorem Settings.AreGivenBy.print_of_prepare {around : Surroundings}
    {arguments : List (Text × Text)} {t : Text} (h : AreGivenBy around arguments t) {timestamp : Text}
    {words : List Text} {session : Session} {r : Request}
    (hprepare : Command.prepare around timestamp words = .ok (session, r)) :
    Command.print around timestamp words = session.print r ∧ session.files = around.files
      ∧ ∀ files, ({ session with files := files } : Session).print r
        = let path := (r.config.filter fun path => !path.isEmpty).getD
            (chosen [] around.environment (EnvFile.assignments t) .configPath)
          session.printLoaded r path (Config.loadLogged files path).outcome := by
  obtain ⟨settings, hfresh, hsettings⟩ := h.withoutArguments.exists_read
  obtain ⟨hfiles, rfl⟩ := Command.of_prepare hprepare hfresh
  refine ⟨by rw [Command.print, hprepare], hfiles, fun files => ?_⟩
  have hpath : ({ session with files := files } : Session).configPath r.config
      = (r.config.filter fun path => !path.isEmpty).getD
        (chosen [] around.environment (EnvFile.assignments t) .configPath) := by
    rw [Session.configPath_eq, ← hsettings .configPath]
    rfl
  rw [Session.print_eq_printLoaded, hpath, Session.printLoaded_files]

open Settings in
/-- Each setting is what the first source that names it gives: an argument, a variable of the
environment, the last assignment of the environment file, or the default. Where the sources say the
same of a setting it is the same, whatever else they say. And a run takes its configuration from the
file that its words name, unless that name is empty, or else from the one that the settings name. -/
theorem Settings.read_precedence {around : Surroundings} {arguments : List (Text × Text)} {t : Text}
    (h : AreGivenBy around arguments t) :
    (∃ settings, read around (Entries.mapValues .text arguments) = .ok settings
      ∧ (∀ s, settings.get s = chosen arguments around.environment (EnvFile.assignments t) s)
      ∧ ∀ around' arguments' t', AreGivenBy around' arguments' t' →
        ∃ settings', read around' (Entries.mapValues .text arguments') = .ok settings'
          ∧ ∀ s : Setting, alike s.name arguments' = alike s.name arguments →
            alike s.variable around'.environment = alike s.variable around.environment →
            alike s.variable (EnvFile.assignments t') = alike s.variable (EnvFile.assignments t) →
            settings'.get s = settings.get s)
    ∧ (∀ timestamp words session r,
      Command.prepare around timestamp words = .ok (session, r) →
      Command.print around timestamp words = session.print r ∧ session.files = around.files
        ∧ ∀ files, ({ session with files := files } : Session).print r
          = let path := (r.config.filter fun path => !path.isEmpty).getD
              (chosen [] around.environment (EnvFile.assignments t) .configPath)
            session.printLoaded r path (Config.loadLogged files path).outcome)
    ∧ ∀ timestamp front i line config, (∀ word ∈ front, word ∈ Command.verboseNames) →
      Invocation.IsSound i line → (∀ path ∈ config, path.head? ≠ some Arguments.dash) →
      (front = [] → (Threshold.ofName?
        (chosen [] around.environment (EnvFile.assignments t) .logLevel)).isSome) →
      ∃ session r, Command.prepare around timestamp (front ++ i.wordsNaming config) = .ok (session, r)
        ∧ r.config = config
        ∧ Command.print around timestamp (front ++ i.wordsNaming config)
          = let path := (config.filter fun path => !path.isEmpty).getD
              (chosen [] around.environment (EnvFile.assignments t) .configPath)
            session.printLoaded r path (Config.loadLogged around.files path).outcome := by
  refine ⟨?_, fun timestamp words session r hprepare => h.print_of_prepare hprepare,
    fun timestamp front i line config hfront hi hconfig hlevel => ?_⟩
  · obtain ⟨settings, hread, hsettings⟩ := h.exists_read
    refine ⟨settings, hread, hsettings, fun around' arguments' t' h' => ?_⟩
    obtain ⟨settings', hread', hsettings'⟩ := h'.exists_read
    refine ⟨settings', hread', fun s harguments henvironment hassignments => ?_⟩
    rw [hsettings, hsettings', chosen, chosen, harguments, henvironment, hassignments]
  · obtain ⟨settings, hfresh, hsettings⟩ := h.withoutArguments.exists_read
    have hknown : (!front.isEmpty) = false → (Threshold.ofName? settings.logLevel).isSome := by
      intro hempty
      have hlogLevel : settings.logLevel
          = chosen [] around.environment (EnvFile.assignments t) .logLevel := hsettings .logLevel
      rw [hlogLevel]
      exact hlevel (by simpa using hempty)
    obtain ⟨logging, hsession⟩ := Command.exists_session hfresh hknown timestamp
    have hprepare := Invocation.prepare_wordsNaming around timestamp hfront hi hconfig
    rw [hsession] at hprepare
    obtain ⟨hprint, -, hloaded⟩ := h.print_of_prepare hprepare
    rw [i.config_requestNaming] at hloaded
    exact ⟨_, _, hprepare, i.config_requestNaming line config, hprint.trans (hloaded around.files)⟩

/-- The text of an environment file with one assignment. -/
def EnvFile.assigning : Text := "export Hound_Config_Path='a b' # c\n"

theorem EnvFile.listings_assigning :
    listings assigning = [(("Hound_Config_Path" : Text), some ("a b" : Text))] := by
  have hstatement : statement assigning = (.assigned "Hound_Config_Path" "a b", []) := by rfl
  have hnil : ∀ line, statementsFrom line [] = [] := fun line => by
    rw [statementsFrom]
    rfl
  have hstatements : statements assigning = [(1, .assigned "Hound_Config_Path" "a b")] := by
    have hplain : statements assigning = statementsFrom 1 assigning := rfl
    have hlength : ([] : Text).length < assigning.length := by decide
    rw [hplain, statementsFrom, if_neg (by decide), hstatement]
    simp only [hlength, if_true, hnil]
  unfold listings
  rw [hstatements]
  rfl

/-- The surroundings of a process with that file and a variable that is empty. -/
def Surroundings.assigning : Surroundings :=
  ⟨.single ".env" "export Hound_Config_Path='a b' # c\n".toUTF8, [("hound_LOG_level", [])], []⟩

open Settings in
/-- An argument, a variable and an assignment, each with a name in a case of its own. A run that names
no file opens the one that is assigned. -/
theorem Settings.read_precedence_assigning :
    let arguments : List (Text × Text) := [("ENVIRONMENT", "x"), ("other", "y")]
    AreGivenBy .assigning arguments EnvFile.assigning
      ∧ ∃ settings, read .assigning (Entries.mapValues .text arguments) = .ok settings
        ∧ settings.environment = "x" ∧ settings.logLevel = [] ∧ settings.configPath = "a b"
        ∧ (∃ session r, Command.prepare .assigning [] ["-v", "check"] = .ok (session, r)
          ∧ Command.print .assigning [] ["-v", "check"] = session.printLoaded r "a b"
            (Config.loadLogged Surroundings.assigning.files "a b").outcome)
        ∧ ∃ session r,
          Command.prepare .assigning [] ["-v", "url", "r", "p", "--config", "c"] = .ok (session, r)
          ∧ Command.print .assigning [] ["-v", "url", "r", "p", "--config", "c"]
            = session.printLoaded r "c"
              (Config.loadLogged Surroundings.assigning.files "c").outcome := by
  intro arguments
  have hnames : EnvFile.HasClearNames EnvFile.assigning := by
    refine ⟨?_, ?_⟩ <;> rw [EnvFile.listings_assigning]
    · simp [Entries.keys]
    · simp
  have hgiven : AreGivenBy .assigning arguments EnvFile.assigning := by
    refine ⟨?_, by decide +kernel, rfl, by decide, hnames⟩
    rw [SettingsArguments.AreGiven]
    decide
  have hassignments : EnvFile.assignments EnvFile.assigning
      = [(("Hound_Config_Path" : Text), ("a b" : Text))] := by
    unfold EnvFile.assignments
    rw [EnvFile.listings_assigning]
    rfl
  obtain ⟨⟨settings, hread, hsettings, -⟩, -, hruns⟩ := read_precedence hgiven
  obtain ⟨session, r, hprepare, -, hprint⟩ := hruns [] ["-v"] .check none none (by decide) trivial
    (by simp) (by simp)
  obtain ⟨session', r', hprepare', -, hprint'⟩ := hruns [] ["-v"] (.url "r" "p" []) none (some "c")
    (by decide) ⟨by decide, by decide, .none⟩ (by decide) (by simp)
  have hdefault : chosen [] Surroundings.assigning.environment
      (EnvFile.assignments EnvFile.assigning) .configPath = "a b" := by
    rw [hassignments]
    decide +kernel
  rw [hassignments] at hsettings
  have henvironment := hsettings .environment
  have hlogLevel := hsettings .logLevel
  have hconfigPath := hsettings .configPath
  rw [hdefault] at hprint hprint'
  refine ⟨hgiven, settings, hread, henvironment.trans ?_, hlogLevel.trans ?_, hconfigPath.trans ?_,
    ⟨session, r, hprepare, hprint⟩, session', r', hprepare', hprint'⟩ <;> decide +kernel

open Settings in
/-- An argument that says how to read: the variables are looked for under another name. -/
theorem Settings.read_otherLead :
    let around : Surroundings := ⟨⟨[], [], 0⟩, [("HOUND_LOG_LEVEL", "DEBUG")], []⟩
    let arguments : List (Text × Text) := [("_env_prefix", "A_")]
    read around (Entries.mapValues .text arguments) = .ok ⟨"development", "INFO", "config.json"⟩
      ∧ chosen arguments around.environment [] .logLevel = "DEBUG" := by
  intro around arguments
  refine ⟨?_, by decide +kernel⟩
  have hcheck : SettingsArguments.check (Entries.mapValues .text arguments) = .ok () := rfl
  have hrules : VariableRules.ofArguments (Entries.mapValues .text arguments)
      = .ok ({ VariableRules.standard with lead := "A_" }, true) := rfl
  have htexts : EnvFile.readAll around (Entries.mapValues .text arguments) = .ok [[]] := rfl
  have hwords : WordRules.given (Entries.mapValues .text arguments) = .ok [] := rfl
  have hsecrets : ∀ rules, SecretFiles.read around rules (Entries.mapValues .text arguments)
      = .ok [] := fun _ => rfl
  rw [read, hcheck, hrules, htexts, hwords]
  simp only [bind, Except.bind, hsecrets, ofSources, setting, List.findSome?_cons, ofEnvFiles,
    List.flatMap_singleton, EnvFile.entries_nil]
  rfl

end SearchConfig
