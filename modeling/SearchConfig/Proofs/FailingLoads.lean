import SearchConfig.Proofs.ControlSequences
import SearchConfig.Proofs.FreshSettings
import SearchConfig.Proofs.Printouts

/-!
# Runs that fail

A run that fails has printed nothing, and a configuration that cannot be loaded is reported by all
commands alike. Which command it is and what else it is given is only looked at when the
configuration has been loaded (`Session.print_of_failure`), and the words of a command name its
configuration or none (`Invocation.prepare_words`, `Invocation.prepare_plainWords`). A message is
printed without its control sequences (`failures_atomic_and_uniform`).
-/

namespace SearchConfig

namespace Arguments

variable {rules : OptionRules} {argument : Text}

theorem read_positional (hrules : rules.interspersed = true) (h : argument.head? ≠ some dash)
    (rest : List Text) :
    read rules (argument :: rest) = (read rules rest).map (withPositional argument) := by
  have hdashes : argument ≠ [dash, dash] := by
    rintro rfl
    exact h rfl
  rw [read, if_neg hdashes, if_neg fun hoption => h hoption.1, if_pos hrules]

theorem read_stops (hrules : rules.interspersed = false) (h : argument.head? ≠ some dash)
    (rest : List Text) : read rules (argument :: rest) = .ok ⟨[], argument :: rest⟩ := by
  have hdashes : argument ≠ [dash, dash] := by
    rintro rfl
    exact h rfl
  rw [read, if_neg hdashes, if_neg fun hoption => h hoption.1, if_neg (by simp [hrules])]

end Arguments

namespace Command

open Arguments

variable {around : Surroundings} {settings : Settings}

/-- The names of the option that is given before the command. -/
def verboseNames : List Text := ["--verbose", "-v"]

theorem read_verbose : ∀ {front : List Text}, (∀ word ∈ front, word ∈ verboseNames) →
    ∀ {word : Text}, word.head? ≠ some dash → ∀ rest,
      Arguments.read programRules (front ++ word :: rest)
        = .ok ⟨front.map fun _ => (.verbose, []), word :: rest⟩
  | [], _, _, hword, rest => read_stops rfl hword rest
  | name :: front, hfront, _, hword, rest => by
    obtain ⟨hname, hfront⟩ := List.forall_mem_cons.1 hfront
    have hread : ∀ rest, Arguments.read programRules (name :: rest)
        = (Arguments.read programRules rest).map (withSwitches [(.verbose, [])]) := by
      simp only [verboseNames, List.mem_cons, List.not_mem_nil, or_false] at hname
      rcases hname with rfl | rfl <;> exact fun _ => rfl
    rw [List.cons_append, hread, read_verbose hfront hword]
    rfl

theorem select_words {front : List Text} (hfront : ∀ word ∈ front, word ∈ verboseNames)
    (c : Command) (rest : List Text) : select (front ++ c.name :: rest)
      = .ok (⟨front.map fun _ => (.verbose, []), c.name :: rest⟩, c, rest) := by
  have hname : c.name.head? ≠ some dash := by cases c <;> decide
  have hofName : ofName? c.name = some c := by cases c <;> rfl
  have hhelp : has ⟨front.map fun _ => (.verbose, []), c.name :: rest⟩ .help = false := by
    simp [has]
  rw [select, if_neg (by simp), read_verbose hfront hname]
  simp only [hhelp, hofName, Bool.false_eq_true, if_false]

/-- There is a session if the settings name a known level, or the run is verbose. -/
theorem exists_session (hfresh : Settings.fresh around = .ok settings) {verbose : Bool}
    (hlevel : verbose = false → (Threshold.ofName? settings.logLevel).isSome) (timestamp : Text) :
    ∃ logging, session around timestamp verbose
      = .ok ⟨around.files, settings, logging, timestamp, warnings around⟩ := by
  have hknown : ∃ threshold, Threshold.ofName? (if verbose then "DEBUG" else settings.logLevel)
      = some threshold := by
    cases verbose
    · exact Option.isSome_iff_exists.1 (hlevel rfl)
    · exact ⟨_, rfl⟩
  obtain ⟨threshold, hknown⟩ := hknown
  refine ⟨⟨threshold, if settings.isProduction then .json else .console⟩, ?_⟩
  simp only [session, hfresh, Logging.ofName?, hknown, Option.map_some]

theorem settings_of_session (hfresh : Settings.fresh around = .ok settings) {timestamp : Text}
    {verbose : Bool} {s : Session} (h : session around timestamp verbose = .ok s) :
    s.settings = settings := by
  obtain ⟨_, hsession, -⟩ | ⟨_, _, hsettings, -, hsession⟩ :=
    session_cases around timestamp verbose <;> rw [hsession] at h
  · cases h
  · obtain rfl := Except.ok.inj h
    exact Except.ok.inj (hsettings.symm.trans hfresh)

end Command

/-- The configuration file to use: the named one, unless its name is empty. -/
def Settings.pathFor (settings : Settings) (config : Text) : Text :=
  if config.isEmpty then settings.configPath else config

namespace Session

theorem configPath_some (s : Session) (config : Text) :
    s.configPath (some config) = s.settings.pathFor config := by
  cases config <;> rfl

/-- A failed load is reported whatever is asked for. -/
theorem print_of_failure {s : Session} {r : Request} {path : Text} {f : Failure}
    (hpath : s.configPath r.config = path) (h : Config.load s.files path = .error (.failure f)) :
    s.print r = ⟨.failed (s.log [loadFailed path f]).stderr f.shown, none⟩ := by
  simp only [print, hpath, Config.outcome_loadLogged, h, Config.loadRecords, log_nil]
  rfl

end Session

/-- A command that needs a configuration, with what else it is given. -/
inductive Invocation where
  | check
  | repos
  | url (repo path : Text) (line : List Text)

/-- Do words give a line, or none? -/
inductive GivesLine : List Text → Option Int → Prop
  | none : GivesLine [] none
  | long {t : Text} {n : Int} (h : t.integer? = some n) : GivesLine ["--line", t] (some n)
  | joined {t : Text} {n : Int} (h : t.integer? = some n) : GivesLine ["--line=" ++ t] (some n)
  | short {t : Text} {n : Int} (h : t.integer? = some n) : GivesLine ["-l", t] (some n)
  | attached {t : Text} {n : Int} (h : t.integer? = some n) : GivesLine ["-l" ++ t] (some n)

namespace Invocation

open Arguments

def command : Invocation → Command
  | check => .check
  | repos => .repos
  | url .. => .url

/-- The words behind the name of the command. -/
def arguments (config : Text) : Invocation → List Text
  | check => [config]
  | repos => [config]
  | url repo path line => [repo, path, "--config", config] ++ line

def words (config : Text) (i : Invocation) : List Text := i.command.name :: i.arguments config

def request (config : Text) (line : Option Int) : Invocation → Request
  | check => .check (some config)
  | repos => .repos (some config)
  | url repo path _ => .url (some config) repo path line

/-- The words behind the name of the command if no configuration is named. -/
def plainArguments : Invocation → List Text
  | check => []
  | repos => []
  | url repo path line => [repo, path] ++ line

def plainWords (i : Invocation) : List Text := i.command.name :: i.plainArguments

def plainRequest (line : Option Int) : Invocation → Request
  | check => .check none
  | repos => .repos none
  | url repo path _ => .url none repo path line

/-- Are the names no options, and is the line an integer? -/
def IsSound : Invocation → Option Int → Prop
  | url repo path line, n =>
    repo.head? ≠ some dash ∧ path.head? ≠ some dash ∧ GivesLine line n
  | _, _ => True

variable {i : Invocation} {line : Option Int} {config : Text}

/-- All that follows a short option is its value. No long option begins with its two characters. -/
theorem options_attached {t : Text} (ht : t ≠ []) :
    options Command.url.rules (dash :: .scalar 'l' :: t) = .ok ⟨[(.line, t)], none⟩ := by
  have hname : (dash :: .scalar 'l' :: t).takeWhile (· != .scalar '=')
      = dash :: .scalar 'l' :: t.takeWhile (· != .scalar '=') := rfl
  have hlong : ∀ name : Text, (if (dash :: .scalar 'l' :: name).length = 2 then none
      else Entries.get? (dash :: .scalar 'l' :: name) Command.url.rules.switches) = none := by
    rintro (_ | ⟨c, name⟩)
    · rfl
    · rfl
  have hcluster : cluster Command.url.rules (.scalar 'l' :: t) = .ok ⟨[(.line, t)], none⟩ := by
    obtain ⟨c, t, rfl⟩ := List.exists_cons_of_ne_nil ht
    rfl
  simp only [options, hname, hlong]
  exact hcluster

/-- The options that words for a line are read as. -/
theorem read_line {words : List Text} (h : GivesLine words line) :
    ∃ switches, Arguments.read Command.url.rules words = .ok ⟨switches, []⟩
      ∧ (switches = [] ∧ line = none
        ∨ ∃ t n, switches = [(.line, t)] ∧ t.integer? = some n ∧ line = some n) := by
  rcases h with _ | ⟨h⟩ | @⟨t, n, h⟩ | ⟨h⟩ | @⟨t, n, h⟩
  · exact ⟨[], rfl, .inl ⟨rfl, rfl⟩⟩
  · exact ⟨_, rfl, .inr ⟨_, _, rfl, h, rfl⟩⟩
  · exact ⟨[(.line, t)], rfl, .inr ⟨t, n, rfl, h, rfl⟩⟩
  · exact ⟨_, rfl, .inr ⟨_, _, rfl, h, rfl⟩⟩
  · have ht : t ≠ [] := by
      rintro rfl
      cases h
    have hread : Arguments.read Command.url.rules ["-l" ++ t] = .ok ⟨[(.line, t)], []⟩ := by
      have hword : ("-l" : Text) ++ t = dash :: .scalar 'l' :: t := rfl
      have hdashes : dash :: .scalar 'l' :: t ≠ [dash, dash] := by simp [dash]
      rw [hword, Arguments.read, if_neg hdashes, if_pos ⟨rfl, by simp⟩, options_attached ht]
      rfl
    exact ⟨_, hread, .inr ⟨t, n, rfl, h, rfl⟩⟩

theorem lineOf_of_value {a : Arguments} {t : Text} (hvalue : a.value? .line = some t) {n : Int}
    (ht : t.integer? = some n) : Command.lineOf a = .ok (some n) := by
  rw [Command.lineOf, hvalue]
  simp only [ht]

/-- The option by which a configuration is named, if one is. -/
def configWords : Option Text → List Text
  | none => []
  | some config => ["--config", config]

/-- The words for a link are read alike with and without the name of a configuration. -/
theorem read_linkWords {repo path : Text} (hrepo : repo.head? ≠ some dash)
    (hpath : path.head? ≠ some dash) {words : List Text} (hline : GivesLine words line)
    (config : Option Text) :
    Command.url.read (repo :: path :: (configWords config ++ words))
      = .ok (.request (.url config repo path line)) := by
  obtain ⟨switches, hread, hswitches⟩ := read_line hline
  let named : List (Switch × Text) := config.toList.map (Prod.mk .config)
  have hnamed : Arguments.read Command.url.rules (configWords config ++ words)
      = .ok ⟨named ++ switches, []⟩ := by
    rcases config with _ | config
    · exact hread
    · have hoption : Arguments.read Command.url.rules ("--config" :: config :: words)
          = (Arguments.read Command.url.rules words).map (withSwitches [(.config, config)]) := rfl
      rw [hread] at hoption
      exact hoption
  have hall : Arguments.read Command.url.rules (repo :: path :: (configWords config ++ words))
      = .ok ⟨named ++ switches, [repo, path]⟩ := by
    rw [read_positional rfl hrepo, read_positional rfl hpath, hnamed]
    rfl
  rw [Command.read, hall]
  obtain ⟨rfl, rfl⟩ | ⟨t, n, rfl, ht, rfl⟩ := hswitches
  · rcases config with _ | config <;> rfl
  · have hvalue : value? ⟨named ++ [(.line, t)], [repo, path]⟩ .line = some t := by
      rcases config with _ | config <;> rfl
    simp only [bind, Except.bind, Command.requestOf, lineOf_of_value hvalue ht]
    rcases config with _ | config <;> rfl

theorem read_arguments (h : i.IsSound line) (hconfig : config.head? ≠ some dash) :
    i.command.read (i.arguments config) = .ok (.request (i.request config line)) := by
  rcases i with _ | _ | ⟨repo, path, words⟩
  · rw [command, arguments, Command.read, read_positional rfl hconfig]
    rfl
  · rw [command, arguments, Command.read, read_positional rfl hconfig]
    rfl
  · obtain ⟨hrepo, hpath, hline⟩ := h
    exact read_linkWords hrepo hpath hline (some config)

theorem read_plainArguments (h : i.IsSound line) :
    i.command.read i.plainArguments = .ok (.request (i.plainRequest line)) := by
  rcases i with _ | _ | ⟨repo, path, words⟩
  · rfl
  · rfl
  · obtain ⟨hrepo, hpath, hline⟩ := h
    exact read_linkWords hrepo hpath hline none

/-- A run is prepared with the request that its words make, if there is a session. -/
theorem prepare_of_read {around : Surroundings} {timestamp : Text} {front : List Text}
    (hfront : ∀ word ∈ front, word ∈ Command.verboseNames) {c : Command} {rest : List Text}
    {r : Request} (hread : c.read rest = .ok (.request r)) :
    Command.prepare around timestamp (front ++ c.name :: rest)
      = (Command.session around timestamp (!front.isEmpty)).map fun s => (s, r) := by
  have hverbose : has ⟨front.map fun _ => (.verbose, []), c.name :: rest⟩ .verbose
      = !front.isEmpty := by
    cases front <;> simp [has]
  rw [Command.prepare, Command.select_words hfront]
  simp only [bind, Except.bind, hverbose]
  rcases Command.session around timestamp (!front.isEmpty) with outcome | s
  · rfl
  · have hrequest : s.request c rest = .ok r := by rw [Session.request, hread]
    simp only [hrequest]
    rfl

theorem prepare_words {around : Surroundings} {timestamp : Text} {front : List Text}
    (hfront : ∀ word ∈ front, word ∈ Command.verboseNames) (h : i.IsSound line)
    (hconfig : config.head? ≠ some dash) :
    Command.prepare around timestamp (front ++ i.words config)
      = (Command.session around timestamp (!front.isEmpty)).map
        fun s => (s, i.request config line) :=
  prepare_of_read hfront (read_arguments h hconfig)

theorem prepare_plainWords {around : Surroundings} {timestamp : Text} {front : List Text}
    (hfront : ∀ word ∈ front, word ∈ Command.verboseNames) (h : i.IsSound line) :
    Command.prepare around timestamp (front ++ i.plainWords)
      = (Command.session around timestamp (!front.isEmpty)).map
        fun s => (s, i.plainRequest line) :=
  prepare_of_read hfront (read_plainArguments h)

/-- A session in which a command names the configuration of the settings goes on as one in which it
names none. -/
theorem print_request_empty (s : Session) (i : Invocation) (line : Option Int) :
    s.print (i.request [] line) = s.print (i.request s.settings.configPath line) := by
  have hpath : s.configPath (i.request [] line).config
      = s.configPath (i.request s.settings.configPath line).config := by
    have hempty : s.settings.pathFor [] = s.settings.configPath := rfl
    have hself : s.settings.pathFor s.settings.configPath = s.settings.configPath := by
      unfold Settings.pathFor
      split_ifs <;> rfl
    rcases i <;> exact (s.configPath_some _).trans (hempty.trans
      (hself.symm.trans (s.configPath_some _).symm))
  have hanswer : ∀ (s' : Session) (c : Config), s'.printAnswer c (i.request [] line)
      = s'.printAnswer c (i.request s.settings.configPath line) := fun s' c => by cases i <;> rfl
  simp only [Session.print, hpath, hanswer]

end Invocation

/-- Ends a run otherwise than well? -/
def Printout.Fails (p : Printout) : Prop := p.exitCode ≠ 0 ∨ p.crash ≠ none ∨ p.fault ≠ none

theorem Outcome.IsClean.stdout_eq_nil {o : Outcome} (h : o.IsClean)
    (hfails : Printout.Fails ⟨o, none⟩) : o.stdout = [] := by
  rcases h with _ | _
  · rfl
  · simp [Printout.Fails, Outcome.succeeded] at hfails

open Arguments

/-- If the files and the arguments are Unicode then a run that fails has printed nothing on standard
output. Let the settings be read and name a known level, and let a configuration fail to be loaded.
Then all commands end alike, and what they write at last is the message without its control
sequences. A configuration without a name stands for the one of the settings. -/
theorem failures_atomic_and_uniform :
    (∀ around timestamp arguments, around.files.IsUnicode → (∀ t ∈ arguments, t.IsScalar) →
      (Command.print around timestamp arguments).Fails →
        (Command.print around timestamp arguments).stdout = [])
    ∧ ∀ around timestamp settings front, Settings.fresh around = .ok settings →
      (∀ word ∈ front, word ∈ Command.verboseNames) →
      (∀ config f, (Threshold.ofName? settings.logLevel).isSome → config.head? ≠ some dash →
        Config.load around.files (settings.pathFor config) = .error (.failure f) →
        (.scalar '\x1b' ∉ f.shown → f.shown.withoutSequences = f.shown)
        ∧ ∃ stderr, ∀ i line, Invocation.IsSound i line →
          Command.print around timestamp (front ++ i.words config)
            = ⟨⟨1, [], stderr ++ ("Error: " ++ f.shown.withoutSequences ++ "\n"), none⟩, none⟩)
      ∧ (settings.configPath.head? ≠ some dash → ∀ i line, Invocation.IsSound i line →
        Command.print around timestamp (front ++ i.words [])
          = Command.print around timestamp (front ++ i.words settings.configPath)) := by
  refine ⟨fun around timestamp arguments hfiles harguments hfails => ?_,
    fun around timestamp settings front hfresh hfront => ⟨fun config f hlevel hconfig hload => ?_,
      fun hsettings i line hi => ?_⟩⟩
  · obtain ⟨o, hprint, hclean⟩ := Command.print_isClean around timestamp hfiles harguments
    rw [hprint] at hfails ⊢
    exact hclean.stdout_eq_nil hfails
  · refine ⟨Text.withoutSequences_of_not_mem, ?_⟩
    have hknown : (!front.isEmpty) = false → (Threshold.ofName? settings.logLevel).isSome :=
      fun _ => hlevel
    obtain ⟨logging, hsession⟩ := Command.exists_session hfresh hknown timestamp
    let s : Session := ⟨around.files, settings, logging, timestamp, Command.warnings around⟩
    refine ⟨(s.log [Session.loadFailed (settings.pathFor config) f]).stderr, fun i line hi => ?_⟩
    have hpath : s.configPath (i.request config line).config = settings.pathFor config := by
      rcases i <;> exact s.configPath_some config
    rw [Command.print, Invocation.prepare_words hfront hi hconfig, hsession]
    refine (Session.print_of_failure hpath hload).trans ?_
    rw [Outcome.failed, Outcome.echo_append (by decide)]
  · have hempty : ([] : Text).head? ≠ some dash := by simp
    rw [Command.print, Invocation.prepare_words hfront hi hempty, Command.print,
      Invocation.prepare_words hfront hi hsettings]
    rcases hsession : Command.session around timestamp (!front.isEmpty) with outcome | s
    · rfl
    · have hs := Command.settings_of_session hfresh hsession
      exact hs ▸ Invocation.print_request_empty s i line

theorem Files.isUnicode_empty : Files.IsUnicode ⟨[], [], 0⟩ where
  targets place target h := by rcases place with _ | _ <;> cases h
  workingDirectory := by simp
  names place entries h := by
    rcases place with _ | _
    · obtain rfl := Node.directory.inj (Option.some.inj h)
      simp
    · cases h

/-- A configuration that is missing. -/
theorem failures_atomic_and_uniform_missing :
    (Command.print .bare [] ["check", "c"]).stdout = []
    ∧ (∃ stderr f, Config.load ⟨[], [], 0⟩ "c" = .error (.failure f)
      ∧ let report : Printout := ⟨⟨1, [], stderr ++ ("Error: " ++ f.shown ++ "\n"), none⟩, none⟩
      Command.print .bare [] ["check", "c"] = report
      ∧ Command.print .bare [] ["repos", "c"] = report
      ∧ Command.print .bare [] ["url", "r", "p", "--config", "c", "--line", "3"] = report)
    ∧ Command.print .bare [] ["check", ""] = Command.print .bare [] ["check", "config.json"] := by
  obtain ⟨hatomic, huniform⟩ := failures_atomic_and_uniform
  obtain ⟨hreport, hempty⟩ := huniform .bare [] _ [] Settings.fresh_bare (by simp)
  obtain ⟨hplain, stderr, hall⟩ := hreport "c" _ rfl (by decide) rfl
  rw [hplain (by decide)] at hall
  have hcode := congrArg (fun p : Printout => p.exitCode) (hall .check none trivial)
  have harguments : ∀ t ∈ (["check", "c"] : List Text), t.IsScalar := fun t ht => by
    rcases List.mem_pair.1 ht with rfl | rfl <;> exact ⟨_, rfl⟩
  refine ⟨hatomic .bare [] _ Files.isUnicode_empty harguments (.inl ?_), ⟨stderr, _, rfl,
    hall .check none trivial, hall .repos none trivial, ?_⟩, hempty (by decide) .check none trivial⟩
  · exact fun hzero => Nat.one_ne_zero (hcode.symm.trans hzero)
  · exact hall (.url "r" "p" ["--line", "3"]) (some 3) ⟨by decide, by decide, .long (by decide)⟩

/-- A message that names a file by a control sequence is not printed as it is. -/
theorem message_loses_control_sequences :
    ∃ settings f, Settings.fresh .bare = .ok settings
      ∧ (Threshold.ofName? settings.logLevel).isSome
      ∧ Config.load ⟨[], [], 0⟩ "\x1b[2J" = .error (.failure f)
      ∧ let p := Command.print .bare [] ["check", "\x1b[2J"]
      p.exitCode = 1 ∧ ¬ (("Error: " : Text) ++ f.shown) <:+: p.stderr := by
  have hsession : Command.session .bare [] false
      = .ok ⟨⟨[], [], 0⟩, ⟨"development", "INFO", "config.json"⟩, ⟨20, .console⟩, [], []⟩ := by
    simp only [Command.session, Settings.fresh_bare, Command.warnings_bare]
    rfl
  have hload : Config.load ⟨[], [], 0⟩ "\x1b[2J"
      = .error (.failure (Config.unreadable (.ofText "\x1b[2J") .noSuchFile)) := rfl
  have hprepare : Command.prepare .bare [] ["check", "\x1b[2J"]
      = .ok (⟨⟨[], [], 0⟩, ⟨"development", "INFO", "config.json"⟩, ⟨20, .console⟩, [], []⟩,
        .check (some "\x1b[2J")) := by
    have hwords : Command.prepare .bare [] ([] ++ Invocation.check.words "\x1b[2J")
        = (Command.session .bare [] false).map
          fun s => (s, Invocation.check.request "\x1b[2J" none) :=
      Invocation.prepare_words (by simp) trivial (by decide)
    exact hwords.trans (by rw [hsession]; rfl)
  refine ⟨_, _, Settings.fresh_bare, by decide, hload, ?_⟩
  rw [Command.print, hprepare]
  simp only []
  rw [Session.print_of_failure rfl hload]
  refine ⟨rfl, fun hinfix => ?_⟩
  have hmem := hinfix.subset (a := .scalar '\x1b') (by decide)
  exact absurd hmem (by decide)

end SearchConfig
