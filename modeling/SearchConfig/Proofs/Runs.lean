import SearchConfig.CommandLine.Printout
import SearchConfig.Proofs.Loading

/-!
# The course of a run

A run whose command is not carried out ends in one of a few ways (`Outcome.IsEarly`). Any other has a
session and a request by then (`Command.prepare_cases`), and goes on by a load. What is printed comes
from the files through that load only (`Session.print_eq`, `Session.printLoaded_files`).
-/

namespace SearchConfig

/-- How a run may end before its command is carried out. -/
inductive Outcome.IsEarly : Outcome → Prop
  | misused (stderr hint : Text) (fault : UsageFault) : IsEarly (.misused stderr hint fault)
  | withoutCommand : IsEarly ⟨2, [], Command.programHelp, none⟩
  | programHelp : IsEarly (.succeeded Command.programHelp [])
  | help (c : Command) (stderr : Text) : IsEarly (.succeeded c.help stderr)
  | settings (stderr : Text) (e : SettingsError) : IsEarly (.crashed stderr (.settings e))
  | level (stderr name : Text) : IsEarly (.crashed stderr (.unknownLevel name))

namespace Command

variable {outcome : Outcome} {arguments : List Text}

theorem isEarly_unknown (word : Text) (arguments : List Text) : (unknown word arguments).IsEarly := by
  unfold unknown
  split
  · exact .misused ..
  · split
    · exact .programHelp
    · exact .misused ..

theorem isEarly_of_select (h : select arguments = .error outcome) : outcome.IsEarly := by
  unfold select at h
  split at h
  · obtain rfl := Except.error.inj h
    exact .withoutCommand
  split at h
  · obtain rfl := Except.error.inj h
    exact .misused ..
  split at h
  · obtain rfl := Except.error.inj h
    exact .programHelp
  split at h
  · obtain rfl := Except.error.inj h
    exact .misused ..
  split at h
  · cases h
  · obtain rfl := Except.error.inj h
    exact isEarly_unknown _ _

/-- The name of the level at which a run logs. -/
def levelName (settings : Settings) (verbose : Bool) : Text :=
  if verbose then "DEBUG" else settings.logLevel

variable (around : Surroundings) (timestamp : Text)

/-- A session has the files and the settings of its surroundings, if there is one. -/
theorem session_cases (verbose : Bool) :
    (∃ outcome, session around timestamp verbose = .error outcome ∧ outcome.IsEarly)
    ∨ ∃ settings logging, Settings.fresh around = .ok settings
      ∧ Logging.ofName? (levelName settings verbose) settings.isProduction = some logging
      ∧ session around timestamp verbose
        = .ok ⟨around.files, settings, logging, timestamp, warnings around⟩ := by
  unfold session
  rcases Settings.fresh around with e | settings
  · exact .inl ⟨_, rfl, .settings ..⟩
  simp only []
  split
  · exact .inl ⟨_, rfl, .level ..⟩
  · exact .inr ⟨settings, _, rfl, ‹_›, rfl⟩

theorem request_cases (s : Session) (c : Command) (arguments : List Text) :
    (∃ outcome, s.request c arguments = .error outcome ∧ outcome.IsEarly)
    ∨ ∃ r, c.read arguments = .ok (.request r) ∧ s.request c arguments = .ok r := by
  unfold Session.request
  rcases c.read arguments with fault | _ | r
  · exact .inl ⟨_, rfl, .misused ..⟩
  · exact .inl ⟨_, rfl, .help ..⟩
  · exact .inr ⟨r, rfl, rfl⟩

/-- A run ends early, or it is prepared with a session of its surroundings and the request that is
read from what stands behind its command. -/
theorem prepare_cases (arguments : List Text) :
    (∃ outcome, prepare around timestamp arguments = .error outcome ∧ outcome.IsEarly)
    ∨ ∃ a c rest s r, select arguments = .ok (a, c, rest)
      ∧ session around timestamp (a.has .verbose) = .ok s ∧ c.read rest = .ok (.request r)
      ∧ prepare around timestamp arguments = .ok (s, r) := by
  unfold prepare
  rcases hselect : select arguments with outcome | ⟨a, c, rest⟩
  · exact .inl ⟨outcome, rfl, isEarly_of_select hselect⟩
  simp only [bind, Except.bind]
  obtain ⟨outcome, hsession, hearly⟩ | ⟨settings, logging, -, -, hsession⟩ :=
    session_cases around timestamp (a.has .verbose) <;> simp only [hsession]
  · exact .inl ⟨outcome, rfl, hearly⟩
  obtain ⟨outcome, hrequest, hearly⟩ | ⟨r, hread, hrequest⟩ := request_cases
    ⟨around.files, settings, logging, timestamp, warnings around⟩ c rest <;> simp only [hrequest]
  · exact .inl ⟨outcome, rfl, hearly⟩
  · exact .inr ⟨a, c, rest, _, r, rfl, hsession, hread, rfl⟩

variable {around timestamp}

theorem files_of_session {verbose : Bool} {s : Session}
    (h : session around timestamp verbose = .ok s) : s.files = around.files := by
  obtain ⟨_, hsession, -⟩ | ⟨_, _, -, -, hsession⟩ := session_cases around timestamp verbose <;>
    rw [hsession] at h
  · cases h
  · obtain rfl := Except.ok.inj h
    rfl

end Command

namespace Session

/-- Prints the answer to a request when the configuration has been loaded from a path. -/
def printLoaded (s : Session) (r : Request) (path : Text)
    (loading : Except LoadError Config × List LogRecord) : Printout :=
  let s := s.log loading.2
  match loading.1 with
  | .ok c => s.printAnswer c r
  | .error (.unusable fault) => .atOnce (.crashed s.stderr (.unusable fault))
  | .error (.failure f) => .atOnce (.failed (s.log [loadFailed path f]).stderr f.shown)

theorem print_eq_printLoaded (s : Session) (r : Request) :
    s.print r = s.printLoaded r (s.configPath r.config)
      (Config.loadLogged s.files (s.configPath r.config)).outcome := by
  rcases h : (Config.loadLogged s.files (s.configPath r.config)).outcome with
    ⟨(f | fault) | c, records⟩ <;> simp only [print, printLoaded, h]

/-- What follows the load does not look at the files. -/
theorem printLoaded_files (s : Session) (files : Files) (r : Request) (path : Text)
    (loading : Except LoadError Config × List LogRecord) :
    ({ s with files := files } : Session).printLoaded r path loading
      = s.printLoaded r path loading := by
  rcases loading with ⟨(f | fault) | c, records⟩
  · rfl
  · rfl
  · cases r <;> rfl

/-- A request is answered from what is loaded. -/
theorem print_eq (s : Session) (r : Request) :
    let path := s.configPath r.config
    let loaded := Config.load s.files path
    s.print r = s.printLoaded r path (loaded, Config.loadRecords path loaded) := by
  rw [print_eq_printLoaded, Config.outcome_loadLogged]

end Session

end SearchConfig
