import SearchConfig.LoggedLoad

/-!
# The steps of a load

A load reads and decodes a file, finds the place of the database and fills in the defaults; the first
step that fails ends it (`Config.load_of_error`, `Config.load_of_ok`). A load that logs as it goes
ends as a load does and logs what is told of its outcome, although it could fail when something has
been logged already (`Config.outcome_loadLogged`).
-/

namespace SearchConfig

/-- A tree with a single file. -/
def Files.single (name : Text) (bytes : ByteArray) : Files := ⟨[(name, .file bytes)], [], 0⟩

theorem Files.at?_single_ne_link {name : Text} {bytes : ByteArray} (place : List Text)
    (target : Text) : (single name bytes).at? place ≠ some (.link target) := by
  intro h
  rcases place with _ | ⟨name', names⟩
  · cases h
  · obtain ⟨node, hnode, htarget⟩ := Option.bind_eq_some_iff.1 h
    have hfile : node = .file bytes := by
      obtain ⟨entry, hentry, rfl⟩ := Option.map_eq_some_iff.1 hnode
      rw [List.mem_singleton.1 (List.mem_of_find?_eq_some hentry)]
    subst hfile
    rcases names with _ | _ <;> cases htarget

namespace Config

variable {files : Files} {path : Path} {name : Text} {bytes : ByteArray}

theorem ofFile_of_accepted {c : Config} (hread : files.read path.toText = .ok bytes)
    (hdecode : Decoded.ofBytes decode bytes = .accepted c) : ofFile files path = .ok c := by
  rw [ofFile, hread]
  simp only [hdecode]

theorem ofFile_of_refused {problems : List Problem} (hread : files.read path.toText = .ok bytes)
    (hdecode : Decoded.ofBytes decode bytes = .refused problems) :
    ofFile files path = .error (.failure (undecodable path problems)) := by
  rw [ofFile, hread]
  simp only [hdecode]

theorem ofFile_of_system {error : SystemError}
    (hread : files.read path.toText = .error (.system error)) :
    ofFile files path = .error (.failure (unreadable path error)) := by
  rw [ofFile, hread]

theorem ofFile_of_unusable {fault : PathFault}
    (hread : files.read path.toText = .error (.unusable fault)) :
    ofFile files path = .error (.unusable fault) := by
  rw [ofFile, hread]

theorem ofFile_of_read {v : Json} {c : Config} (hread : files.read path.toText = .ok bytes)
    (hv : Json.ofBytes? bytes = some v) : ofFile files path = .ok c ↔ decode v = .accepted c := by
  have hbytes : Decoded.ofBytes decode bytes = decode v := by rw [Decoded.ofBytes, hv]
  rcases hdecode : (decode v : Decoded Config) with c' | problems
  · rw [ofFile_of_accepted hread (hbytes.trans hdecode), Except.ok.injEq, Decoded.accepted.injEq]
  · rw [ofFile_of_refused hread (hbytes.trans hdecode)]
    simp

section ResolveDbPath

variable (files) (dbPath : Text) (config : Path)

/-- A database path has a place, is one that the system does not take, or has no place. -/
theorem resolveDbPath_cases :
    (∃ fault, resolveDbPath files dbPath config = .error (.unusable fault))
      ∨ (∃ cause,
        resolveDbPath files dbPath config = .error (.failure (unresolvable dbPath config cause)))
      ∨ ∃ place, resolveDbPath files dbPath config = .ok place := by
  unfold resolveDbPath
  split
  · exact .inr (.inr ⟨dbPath, rfl⟩)
  · rcases files.canonical (config.parent.append (.ofText dbPath)) with (fault | _ | _) | place
    · exact .inl ⟨fault, rfl⟩
    · exact .inr (.inl ⟨.endlessLinks, rfl⟩)
    · exact .inr (.inl ⟨.deepLinks, rfl⟩)
    · exact .inr (.inr ⟨place, rfl⟩)

variable {files dbPath}

theorem resolveDbPath_of_isAbsolute (h : (Path.ofText dbPath).isAbsolute = true) :
    resolveDbPath files dbPath config = .ok dbPath := if_pos h

variable (hrelative : (Path.ofText dbPath).isAbsolute = false)

include hrelative

theorem resolveDbPath_ok_iff (place : Text) : resolveDbPath files dbPath config = .ok place
    ↔ files.canonical (config.parent.append (.ofText dbPath)) = .ok place := by
  rw [resolveDbPath, if_neg (by simp [hrelative])]
  rcases files.canonical (config.parent.append (.ofText dbPath)) with (fault | _ | _) | place <;> simp

theorem resolveDbPath_unusable_iff (fault : PathFault) :
    resolveDbPath files dbPath config = .error (.unusable fault)
      ↔ files.canonical (config.parent.append (.ofText dbPath)) = .error (.unusable fault) := by
  rw [resolveDbPath, if_neg (by simp [hrelative])]
  rcases files.canonical (config.parent.append (.ofText dbPath)) with (fault | _ | _) | place <;> simp

end ResolveDbPath

theorem load_of_error {e : LoadError} (h : ofFile files (.ofText name) = .error e) :
    load files name = .error e := by
  simp only [load, h]
  rfl

theorem load_of_ok {c : Config} (h : ofFile files (.ofText name) = .ok c) :
    load files name = (resolveDbPath files c.dbPath (.ofText name)).map
      fun place => { c.normalized with dbPath := place } := by
  simp only [load, h]
  rfl

/-- What is loaded is what a file holds with everything filled and the place of its database. -/
theorem exists_of_load {c : Config} (h : load files name = .ok c) : ∃ d place,
    ofFile files (.ofText name) = .ok d ∧ resolveDbPath files d.dbPath (.ofText name) = .ok place
      ∧ c = { d.normalized with dbPath := place } := by
  rcases hfile : ofFile files (.ofText name) with e | d
  · rw [load_of_error hfile] at h
    cases h
  · rw [load_of_ok hfile] at h
    rcases hplace : resolveDbPath files d.dbPath (.ofText name) with e | place <;> rw [hplace] at h
    · cases h
    · exact ⟨d, place, rfl, hplace, (Except.ok.inj h).symm⟩

end Config

namespace Logged

variable {α β : Type}

theorem run_pure (a : α) (records : List LogRecord) :
    (pure a : Logged α).run.run records = (.ok a, records) := rfl

theorem run_log (r : LogRecord) (records : List LogRecord) :
    (log r).run.run records = (.ok (), records ++ [r]) := rfl

theorem run_bind (x : Logged α) (next : α → Logged β) (records : List LogRecord) :
    (x >>= next).run.run records = match x.run.run records with
      | (.ok a, records) => (next a).run.run records
      | (.error e, records) => (.error e, records) := by
  unfold ExceptT.run StateT.run
  simp only [bind, ExceptT.bind, ExceptT.mk, StateT.bind, ExceptT.bindCont]
  rcases x records with ⟨e | a, records⟩ <;> rfl

/-- A step that does not log fails or goes on with the same log. -/
theorem run_lift (x : Except LoadError α) (records : List LogRecord) :
    (liftM x : Logged α).run.run records = (x, records) := rfl

end Logged

namespace Config

open Logged

/-- Completing repositories never fails and logs each of them in its turn. -/
theorem run_complete : ∀ (repos : List (Text × Repository)) (records : List LogRecord),
    (repos.mapM complete).run.run records
      = (.ok (Entries.mapValues Repository.normalized repos),
        records ++ (Entries.mapValues Repository.normalized repos).map repositoryRecord)
  | [], records => by
    rw [List.mapM_nil, run_pure]
    simp [Entries.mapValues]
  | entry :: repos, records => by
    have hentry : (complete entry).run.run records
        = (.ok (entry.1, entry.2.normalized),
          records ++ [repositoryRecord (entry.1, entry.2.normalized)]) := rfl
    rw [List.mapM_cons, run_bind, hentry]
    simp only [run_bind, run_complete repos, run_pure]
    simp [Entries.mapValues]

/-- A load that is taken step by step ends as a load and logs what is told of how it ends. -/
theorem outcome_loadLogged (files : Files) (name : Text) :
    (loadLogged files name).outcome = (load files name, loadRecords name (load files name)) := by
  rw [outcome, loadLogged, run_bind, run_lift]
  rcases hfile : ofFile files (.ofText name) with e | d
  · rw [load_of_error hfile]
    rfl
  · rw [load_of_ok hfile]
    simp only [run_bind, run_lift]
    have hdbPath : d.withTitle.dbPath = d.dbPath := rfl
    rw [hdbPath]
    rcases resolveDbPath files d.dbPath (.ofText name) with e | place
    · rfl
    · simp only [run_complete, run_log, run_pure, List.nil_append]
      rfl

end Config

end SearchConfig
