import SearchConfig.Proofs.Loading
import SearchConfig.Proofs.PathFaults
import SearchConfig.Proofs.ReadBack

/-!
# How a load fails

A load is to end with a configuration or with a failure to read, to decode or to find the place of
the database. It does so just if the operating system takes the name of the file and, where the
database path is not absolute, the walk along it comes to no name that the system does not take
(`Config.load_endsAsPromised_iff`).
-/

namespace SearchConfig

namespace Files

theorem read_unusable_iff (files : Files) (path : Text) :
    (∃ fault, files.read path = .error (.unusable fault)) ↔ ¬ path.IsUsable := by
  rw [← locate_unusable_iff files]
  unfold read
  rcases files.locate path with e | place
  · simp only [bind, Except.bind, Except.error.injEq]
  · simp only [bind, Except.bind, reduceCtorEq, exists_false, iff_false, not_exists]
    intro fault
    split <;> simp [pure, Except.pure, throw, throwThe, MonadExceptOf.throw]

end Files

namespace Config

/-- The kinds of failures that a load may end with. -/
def loadFailures : List FailureKind := [.configRead, .configDecode, .pathResolution]

/-- Is the outcome of a load a configuration or a failure of the kinds it may end with? -/
def EndsAsPromised : Except LoadError Config → Prop
  | .ok _ => True
  | .error (.failure f) => f.kind ∈ loadFailures
  | .error (.unusable _) => False

variable {files : Files}

theorem ofFile_endsAsPromised_iff (files : Files) (name : Text) :
    EndsAsPromised (ofFile files (.ofText name)) ↔ name.IsUsable := by
  rw [← Path.isUsable_toText_ofText_iff, ← not_iff_not, ← Files.read_unusable_iff files]
  rcases h : files.read (Path.ofText name).toText with (fault | error) | bytes
  · rw [ofFile_of_unusable h]
    simp [EndsAsPromised]
  · rw [ofFile_of_system h]
    simp [EndsAsPromised, loadFailures, unreadable]
  · rcases hdecode : Decoded.ofBytes decode bytes with c | problems
    · rw [ofFile_of_accepted h hdecode]
      simp [EndsAsPromised]
    · rw [ofFile_of_refused h hdecode]
      simp [EndsAsPromised, loadFailures, undecodable]

/-- The path of the database as it is looked for. -/
def dbPathFrom (config : Path) (c : Config) : Path := config.parent.append (.ofText c.dbPath)

theorem resolveDbPath_meetsFault_iff (hfiles : files.IsUsable) (name : Text) {dbPath : Text}
    (hrelative : (Path.ofText dbPath).isAbsolute = false) :
    (∃ fault, resolveDbPath files dbPath (.ofText name) = .error (.unusable fault))
      ↔ files.MeetsFault ((Path.ofText name).parent.append (.ofText dbPath)) := by
  rw [← Files.canonical_unusable_iff hfiles (Path.isName_of_mem_parent_append name dbPath)]
  exact exists_congr fun fault => resolveDbPath_unusable_iff _ hrelative fault

theorem endsAsPromised_of_resolveDbPath (hfiles : files.IsUsable) {name : Text} {c : Config}
    (h : ofFile files (.ofText name) = .ok c) :
    EndsAsPromised (load files name)
      ↔ ((Path.ofText c.dbPath).isAbsolute = false →
        ¬ files.MeetsFault (dbPathFrom (.ofText name) c)) := by
  rw [load_of_ok h]
  rcases habsolute : (Path.ofText c.dbPath).isAbsolute
  · rw [dbPathFrom, ← resolveDbPath_meetsFault_iff hfiles name habsolute]
    obtain ⟨fault, hplace⟩ | ⟨cause, hplace⟩ | ⟨place, hplace⟩ :=
      resolveDbPath_cases files c.dbPath (.ofText name) <;> rw [hplace]
    · simp [Except.map, EndsAsPromised]
    · simp [Except.map, EndsAsPromised, unresolvable, loadFailures]
    · simp [Except.map, EndsAsPromised]
  · rw [resolveDbPath_of_isAbsolute _ habsolute]
    simp [Except.map, EndsAsPromised]

/-- A load ends as it promises just if the operating system takes the name of the file and the walk
along a database path that is not absolute comes to no name that the system does not take. -/
theorem load_endsAsPromised_iff (hfiles : files.IsUsable) (name : Text) :
    EndsAsPromised (load files name) ↔ name.IsUsable ∧ ∀ c, ofFile files (.ofText name) = .ok c →
      (Path.ofText c.dbPath).isAbsolute = false →
        ¬ files.MeetsFault (dbPathFrom (.ofText name) c) := by
  have hfile := ofFile_endsAsPromised_iff files name
  rcases h : ofFile files (.ofText name) with e | c
  · rw [h] at hfile
    rw [load_of_error h, ← hfile]
    simp only [reduceCtorEq, false_imp_iff, implies_true, and_true]
  · rw [h] at hfile
    have hname : name.IsUsable := hfile.1 trivial
    rw [endsAsPromised_of_resolveDbPath hfiles h]
    simp only [hname, true_and, Except.ok.injEq, forall_eq']

end Config

theorem Files.isUsable_single (name : Text) (bytes : ByteArray) : (single name bytes).IsUsable where
  targets place target h := absurd h (at?_single_ne_link place target)
  workingDirectory := by simp [single]

/-- A database path that holds the character that ends names keeps a load from ending as it
promises. -/
theorem Config.not_endsAsPromised_of_null : ¬ EndsAsPromised (load
    (.single "config.json" (Json.object [("dbpath".toList, .string ['a', '\x00'])]).toBytes)
    "config.json") := by
  have hread : Json.ofBytes? (Json.object [("dbpath".toList, .string ['a', '\x00'])]).toBytes
      = some (.object [("dbpath".toList, .string ['a', '\x00'])]) :=
    Json.ofBytes?_toBytes (by simp [Json.Each, Json.EachEntry, Json.ReadsBack]) (by decide)
  have hfile : ofFile (.single "config.json"
      (Json.object [("dbpath".toList, .string ['a', '\x00'])]).toBytes) (.ofText "config.json")
      = .ok ⟨.ofChars ['a', '\x00'], [], [], 0, []⟩ := by
    refine ofFile_of_accepted rfl ?_
    rw [Decoded.ofBytes, hread]
    rfl
  rw [load_endsAsPromised_iff (Files.isUsable_single _ _)]
  rintro ⟨-, h⟩
  exact h _ hfile rfl ⟨[], .ofChars ['a', '\x00'], [], rfl, by simp, by decide, trivial⟩

end SearchConfig
