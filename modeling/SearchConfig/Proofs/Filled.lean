import SearchConfig.Proofs.LoadErrors
import SearchConfig.Proofs.Runs

/-!
# What is loaded is filled

A configuration that is loaded lacks nothing: its texts and numbers are filled, its database path is
absolute, and each of its repositories can be polled and linked to (`Config.isFilled_of_load`). So
no command ends in the failure of a repository that cannot be linked to
(`Command.reportsFailures_print`). What is filled is left as it is by filling it again.
-/

namespace SearchConfig

namespace Defaults

theorem orText_ne_nil {default : Text} (h : default ≠ []) (t : Text) : orText default t ≠ [] := by
  unfold orText
  split
  · exact h
  · rename_i ht
    rwa [List.isEmpty_iff] at ht

theorem orText_of_ne_nil {t : Text} (h : t ≠ []) (default : Text) : orText default t = t := by
  rw [orText, if_neg]
  rwa [List.isEmpty_iff]

theorem orNumber_ne_zero {default : Int} (h : default ≠ 0) (n : Int) : orNumber default n ≠ 0 := by
  unfold orNumber
  split
  · exact h
  · assumption

theorem orNumber_of_ne_zero {n : Int} (h : n ≠ 0) (default : Int) : orNumber default n = n :=
  if_neg h

end Defaults

/-- Are both templates of a pattern filled? -/
def UrlPattern.IsFilled (p : UrlPattern) : Prop := p.baseUrl ≠ [] ∧ p.anchor ≠ []

theorem UrlPattern.isFilled_completed (p : UrlPattern) : p.completed.IsFilled :=
  ⟨Defaults.orText_ne_nil (by decide) _, Defaults.orText_ne_nil (by decide) _⟩

theorem UrlPattern.completed_of_isFilled {p : UrlPattern} (h : p.IsFilled) : p.completed = p := by
  rw [completed, Defaults.orText_of_ne_nil h.1, Defaults.orText_of_ne_nil h.2]

theorem Defaults.isFilled_patternFor (url : Text) : (patternFor url).IsFilled := by
  unfold patternFor
  split
  · exact ⟨by decide, by decide⟩
  · exact ⟨by decide, by decide⟩

/-- Has a repository all that is needed to poll it and to link to its files? -/
structure Repository.IsFilled (r : Repository) : Prop where
  msBetweenPoll : r.msBetweenPoll ≠ 0
  vcs : r.vcs ≠ []
  urlPattern : ∃ p, r.urlPattern = some p ∧ p.IsFilled

namespace Repository

theorem isFilled_normalized (r : Repository) : r.normalized.IsFilled where
  msBetweenPoll := Defaults.orNumber_ne_zero (by decide) _
  vcs := Defaults.orText_ne_nil (by decide) _
  urlPattern := by
    refine ⟨_, rfl, ?_⟩
    split
    · exact Defaults.isFilled_patternFor r.url
    · exact UrlPattern.isFilled_completed _

theorem normalized_of_isFilled {r : Repository} (h : r.IsFilled) : r.normalized = r := by
  obtain ⟨hpoll, hvcs, p, hp, hfilled⟩ := h
  obtain ⟨url, ms, vcs, secret, pattern, dots, poll, push⟩ := r
  obtain rfl : pattern = some p := hp
  simp only [normalized, withScalarDefaults, RepositoryOf.withPattern,
    UrlPattern.completed_of_isFilled hfilled, Defaults.orNumber_of_ne_zero hpoll,
    Defaults.orText_of_ne_nil hvcs]

theorem IsFilled.linker {r : Repository} (h : r.IsFilled) :
    ∃ linker, Linker.ofRepository r = .ok linker := by
  obtain ⟨p, hp, -⟩ := h.urlPattern
  exact ⟨⟨r.url, p⟩, by rw [Linker.ofRepository, hp]⟩

end Repository

/-- Lacks a configuration nothing? -/
structure Config.IsFilled (c : Config) : Prop where
  title : c.title ≠ []
  healthCheckUri : c.healthCheckUri ≠ []
  maxConcurrentIndexers : c.maxConcurrentIndexers ≠ 0
  dbPath : (Path.ofText c.dbPath).isAbsolute = true
  repos : ∀ entry ∈ c.repos, entry.2.IsFilled

namespace Path

theorem isAbsolute_ofText (t : Text) : (ofText t).isAbsolute = true ↔ t.head? = some slash := by
  rcases t with _ | ⟨c, t⟩
  · simp [ofText, isAbsolute, anchorOf]
  · by_cases hc : c = slash
    · subst hc
      simp only [ofText, isAbsolute, anchorOf, List.takeWhile_cons, beq_self_eq_true, if_true,
        List.length_cons, List.head?_cons, iff_true]
      split
      · omega
      · rfl
      · rfl
    · simp [ofText, isAbsolute, anchorOf, hc]

theorem isAbsolute_append {p : Path} (h : p.isAbsolute = true) (q : Path) :
    (p.append q).isAbsolute = true := by
  unfold append
  split
  · assumption
  · exact h

theorem head?_toText_of_isAbsolute {p : Path} (h : p.isAbsolute = true) :
    p.toText.head? = some slash := by
  obtain ⟨anchor, parts⟩ := p
  rcases anchor
  · cases h
  · rfl
  · rfl

end Path

theorem Files.isAbsolute_absolute (files : Files) (path : Text) :
    (files.absolute path).isAbsolute = true :=
  Path.isAbsolute_append (p := ⟨.root, files.workingDirectory⟩) rfl (Path.ofText path)

/-- A canonical form is absolute. -/
theorem Files.isAbsolute_of_canonical {files : Files} {path : Path} {t : Text}
    (h : files.canonical path = .ok t) : (Path.ofText t).isAbsolute = true := by
  obtain ⟨path', rfl⟩ := exists_absolute_of_canonical h
  rw [Path.isAbsolute_ofText]
  exact Path.head?_toText_of_isAbsolute (isAbsolute_absolute files path')

namespace Config

variable {files : Files} {name : Text} {c : Config}

theorem isAbsolute_of_resolveDbPath {dbPath place : Text} {config : Path}
    (h : resolveDbPath files dbPath config = .ok place) :
    (Path.ofText place).isAbsolute = true := by
  rcases habsolute : (Path.ofText dbPath).isAbsolute
  · exact Files.isAbsolute_of_canonical ((resolveDbPath_ok_iff config habsolute place).1 h)
  · rw [resolveDbPath_of_isAbsolute config habsolute] at h
    obtain rfl := Except.ok.inj h
    exact habsolute

theorem isFilled_of_load (h : load files name = .ok c) : c.IsFilled := by
  obtain ⟨d, place, -, hplace, rfl⟩ := exists_of_load h
  constructor
  · exact Defaults.orText_ne_nil (by decide) d.title
  · exact Defaults.orText_ne_nil (by decide) d.healthCheckUri
  · exact Defaults.orNumber_ne_zero (by decide) d.maxConcurrentIndexers
  · exact isAbsolute_of_resolveDbPath hplace
  · intro entry hentry
    obtain ⟨⟨k, r⟩, -, rfl⟩ := List.mem_map.1 hentry
    exact Repository.isFilled_normalized r

end Config

/-- Does a run end otherwise than in a failure that is not reported? -/
def Outcome.ReportsFailures (outcome : Outcome) : Prop := ∀ f, outcome.crash ≠ some (.failure f)

namespace Outcome

theorem reportsFailures_of_none {outcome : Outcome} (h : outcome.crash = none) :
    outcome.ReportsFailures := by
  intro f
  simp [h]

theorem reportsFailures_crashed (stderr : Text) {crash : Crash} (h : ∀ f, crash ≠ .failure f) :
    (crashed stderr crash).ReportsFailures := by
  intro f heq
  exact h f (Option.some.inj heq)

theorem IsEarly.reportsFailures {outcome : Outcome} (h : outcome.IsEarly) :
    outcome.ReportsFailures := by
  cases h with
  | settings stderr e => exact reportsFailures_crashed stderr fun f => Crash.noConfusion
  | level stderr name => exact reportsFailures_crashed stderr fun f => Crash.noConfusion
  | _ => exact reportsFailures_of_none rfl

end Outcome

open Outcome

namespace Printout

/-- Printing ends in no failure of its own. -/
theorem reportsFailures_atOnce {outcome : Outcome} (h : outcome.ReportsFailures) :
    (atOnce outcome).ReportsFailures := by
  unfold atOnce
  split
  · exact h
  · exact reportsFailures_of_none rfl

theorem reportsFailures_ofLines (stderr : Text) (lines : List Line) :
    (ofLines stderr lines).ReportsFailures := by
  unfold ofLines
  split <;> exact reportsFailures_of_none rfl

end Printout

open Printout

namespace Session

theorem reportsFailures_repos (s : Session) (c : Config) : (s.repos c).ReportsFailures := by
  unfold repos
  split <;> exact reportsFailures_of_none rfl

theorem reportsFailures_url (s : Session) (repo path : Text) (line : Option Int) {c : Config}
    (h : c.IsFilled) : (s.url repo path line c).ReportsFailures := by
  unfold url
  split
  · exact reportsFailures_of_none rfl
  · rename_i r hr
    obtain ⟨linker, hlinker⟩ := (h.repos (repo, r) (Entries.mem_of_get? hr)).linker
    simp only [hlinker]
    split
    · exact reportsFailures_of_none rfl
    · exact reportsFailures_crashed _ fun f => Crash.noConfusion

theorem reportsFailures_print (s : Session) (r : Request) : (s.print r).ReportsFailures := by
  rw [print_eq, printLoaded]
  rcases hload : Config.load s.files (s.configPath r.config) with (f | fault) | c
  · exact reportsFailures_atOnce (reportsFailures_of_none rfl)
  · exact reportsFailures_atOnce (reportsFailures_crashed _ fun f => Crash.noConfusion)
  · rcases r with config | config | ⟨config, repo, path, line⟩
    · exact reportsFailures_ofLines _ _
    · exact reportsFailures_atOnce (reportsFailures_repos _ c)
    · exact reportsFailures_atOnce
        (reportsFailures_url _ repo path line (Config.isFilled_of_load hload))

end Session

/-- No run ends in a failure that is not reported. -/
theorem Command.reportsFailures_print (around : Surroundings) (timestamp : Text)
    (arguments : List Text) : (print around timestamp arguments).ReportsFailures := by
  rw [print]
  obtain ⟨outcome, hprepare, hearly⟩ | ⟨_, _, _, s, r, -, -, -, hprepare⟩ :=
    prepare_cases around timestamp arguments <;> simp only [hprepare]
  · exact reportsFailures_atOnce hearly.reportsFailures
  · exact s.reportsFailures_print r

/-- Whatever is loaded lacks nothing and can be linked to, so no run ends in the failure of a
repository that cannot be. -/
theorem load_filled :
    (∀ files name c, Config.load files name = .ok c →
      c.IsFilled ∧ ∀ entry ∈ c.repos, ∃ linker, Linker.ofRepository entry.2 = .ok linker)
    ∧ ∀ around timestamp arguments f,
      (Command.print around timestamp arguments).crash ≠ some (.failure f) := by
  refine ⟨fun files name c h => ?_, Command.reportsFailures_print⟩
  have hfilled := Config.isFilled_of_load h
  exact ⟨hfilled, fun entry hentry => (hfilled.repos entry hentry).linker⟩

/-- A repository with nothing but its address is filled, with the pattern of its host. -/
theorem load_filled_single : ∃ c : Config, Config.load (.single "config.json" (Json.object
      [("repos".toList, .object [("r".toList, .object [("url".toList, .string ['u'])])])]).toBytes)
      "config.json" = .ok c ∧ c.IsFilled
    ∧ ∀ entry ∈ c.repos, ∃ linker, Linker.ofRepository entry.2 = .ok linker := by
  have hread : Json.ofBytes? (Json.object
      [("repos".toList, .object [("r".toList, .object [("url".toList, .string ['u'])])])]).toBytes
      = some (.object
        [("repos".toList, .object [("r".toList, .object [("url".toList, .string ['u'])])])]) :=
    Json.ofBytes?_toBytes (by simp [Json.Each, Json.EachEntry, Json.ReadsBack]) (by decide)
  have hfile : Config.ofFile (.single "config.json" (Json.object
      [("repos".toList, .object [("r".toList, .object [("url".toList, .string ['u'])])])]).toBytes)
      (.ofText "config.json")
      = .ok ⟨[], [], [("r", ⟨"u", 0, [], none, none, false, none, none⟩)], 0, []⟩ := by
    refine Config.ofFile_of_accepted rfl ?_
    rw [Decoded.ofBytes, hread]
    rfl
  have hload := Config.load_of_ok hfile
  exact ⟨_, hload, load_filled.1 _ _ _ hload⟩

end SearchConfig
