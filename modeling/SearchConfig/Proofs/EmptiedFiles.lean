import SearchConfig.Files.Canonical
import SearchConfig.Proofs.OrderedEntries

/-!
# Paths do not depend on what files hold

Emptying all files of a tree changes neither the place that a path leads to (`locate_emptied`) nor
its canonical form (`canonical_emptied`). So both stay the same when a file is given other bytes,
and of all that is read only that file changes (`read_plant_of_ne`).
-/

namespace SearchConfig

namespace Node

mutual

/-- The entry with all files in it emptied. -/
def emptied : Node → Node
  | file _ => file .empty
  | link target => link target
  | directory entries => directory (emptiedEntries entries)

def emptiedEntries : List (Text × Node) → List (Text × Node)
  | [] => []
  | (name, node) :: entries => (name, emptied node) :: emptiedEntries entries

end

theorem emptiedEntries_eq (entries : List (Text × Node)) :
    emptiedEntries entries = Entries.mapValues emptied entries := by
  induction entries with
  | nil => rfl
  | cons entry entries ih =>
    rw [emptiedEntries, ih]
    rfl

theorem emptied_directory (entries : List (Text × Node)) :
    emptied (directory entries) = directory (Entries.mapValues emptied entries) := by
  rw [emptied, emptiedEntries_eq]

theorem target?_emptied (node : Node) : node.emptied.target? = node.target? := by
  cases node <;> rfl

theorem entries_emptied (node : Node) :
    node.emptied.entries = Entries.mapValues emptied node.entries := by
  rcases node with _ | _ | entries
  · rfl
  · rfl
  · rw [emptied_directory]
    rfl

theorem at?_cons (name : Text) (names : List Text) (entries : List (Text × Node)) :
    (directory entries).at? (name :: names) = (Entries.get? name entries).bind (·.at? names) := rfl

theorem at?_emptied (place : List Text) (node : Node) :
    node.emptied.at? place = (node.at? place).map emptied := by
  induction place generalizing node with
  | nil => rfl
  | cons name names ih =>
    rcases node with _ | _ | entries
    · rfl
    · rfl
    · rw [emptied_directory, at?_cons, at?_cons, Entries.get?_mapValues]
      rcases Entries.get? name entries with _ | child
      · rfl
      · exact ih child

theorem emptied_plant (new : Node) (place : List Text) (node : Node) :
    (plant new place node).emptied = plant new.emptied place node.emptied := by
  induction place generalizing node with
  | nil => rfl
  | cons name names ih =>
    rw [plant, emptied_directory, Entries.mapValues_put, ih, plant, entries_emptied,
      Entries.get?_mapValues]
    rcases Entries.get? name node.entries with _ | child <;> rfl

/-- A directory leads to what is in it. -/
theorem directory_of_at?_cons {name : Text} {names : List Text} {node new : Node}
    (h : node.at? (name :: names) = some new) : ∃ entries child, node = directory entries
      ∧ Entries.get? name entries = some child ∧ child.at? names = some new := by
  rcases node with _ | _ | entries
  · cases h
  · cases h
  · obtain ⟨child, hchild, hnew⟩ := Option.bind_eq_some_iff.1 h
    exact ⟨entries, child, rfl, hchild, hnew⟩

/-- Planting what is there already changes nothing. -/
theorem plant_of_at? {new : Node} {place : List Text} {node : Node}
    (h : node.at? place = some new) : plant new place node = node := by
  induction place generalizing node with
  | nil => exact (Option.some.inj h).symm
  | cons name names ih =>
    obtain ⟨entries, child, rfl, hchild, hnew⟩ := directory_of_at?_cons h
    simp only [plant, Node.entries, hchild, Option.getD_some, ih hnew]
    rw [Entries.put_of_get? hchild]

/-- A file given other bytes leaves the tree as it is but for them. -/
theorem emptied_plant_file {place : List Text} {node : Node} {a : ByteArray}
    (h : node.at? place = some (file a)) (b : ByteArray) :
    (plant (file b) place node).emptied = node.emptied := by
  have hempty : node.emptied.at? place = some (file .empty) := by
    rw [at?_emptied, h]
    rfl
  rw [emptied_plant]
  exact plant_of_at? hempty

theorem at?_plant_self (new : Node) (place : List Text) (node : Node) :
    (plant new place node).at? place = some new := by
  induction place generalizing node with
  | nil => rfl
  | cons name names ih =>
    rw [plant, at?_cons, Entries.get?_put, if_pos (beq_self_eq_true name)]
    exact ih _

/-- Away from its place, a planted file changes at most what is in a directory. -/
theorem at?_plant_of_ne {place : List Text} {node : Node} {a : ByteArray}
    (h : node.at? place = some (file a)) (b : ByteArray) {other : List Text} (hne : other ≠ place) :
    (plant (file b) place node).at? other = node.at? other
      ∨ ∃ entries entries', node.at? other = some (directory entries)
        ∧ (plant (file b) place node).at? other = some (directory entries') := by
  induction place generalizing node other with
  | nil =>
    rcases other with _ | ⟨name, names⟩
    · exact absurd rfl hne
    · obtain rfl := Option.some.inj h
      exact .inl rfl
  | cons name names ih =>
    obtain ⟨entries, child, rfl, hchild, hfile⟩ := directory_of_at?_cons h
    rcases other with _ | ⟨name', names'⟩
    · exact .inr ⟨_, _, rfl, rfl⟩
    · rw [plant, at?_cons, at?_cons, Entries.get?_put]
      split
      · rename_i hname
        obtain rfl := eq_of_beq hname
        have hne' : names' ≠ names := fun heq => hne (congrArg _ heq)
        simpa [Node.entries, hchild] using ih hfile hne'
      · exact .inl rfl

end Node

namespace Files

/-- The tree with all files in it emptied. -/
def emptied (files : Files) : Files :=
  { files with entries := Entries.mapValues Node.emptied files.entries }

theorem root_emptied (files : Files) : files.emptied.root = files.root.emptied :=
  (Node.emptied_directory files.entries).symm

theorem at?_emptied (files : Files) (place : List Text) :
    files.emptied.at? place = (files.at? place).map Node.emptied := by
  rw [at?, root_emptied, Node.at?_emptied, at?]

theorem advance_emptied (files : Files) (place names : List Text) :
    files.emptied.advance place names = files.advance place names := by
  induction names generalizing place with
  | nil => rfl
  | cons name rest ih =>
    rw [advance, advance, at?_emptied]
    rcases files.at? place with _ | _ | _ | entries
    · rfl
    · rfl
    · rfl
    · simp only [Option.map_some, Node.emptied_directory, Entries.get?_mapValues, ih]
      rcases Entries.get? name entries with _ | _ | _ | _ <;> rfl

theorem follow_emptied (files : Files) (links : Nat) (place names : List Text) :
    files.emptied.follow links place names = files.follow links place names := by
  induction links generalizing place names with
  | zero => rw [follow, follow, advance_emptied]
  | succ links ih =>
    rw [follow, follow, advance_emptied]
    rcases files.advance place names with _ | ⟨place', target, rest⟩ | _
    · rfl
    · exact ih _ _
    · rfl

/-- The place that a path leads to does not depend on what files hold. -/
theorem locate_emptied (files : Files) (path : Text) :
    files.emptied.locate path = files.locate path := by
  simp only [locate, follow_emptied]
  rfl

theorem linkAt?_emptied (files : Files) (s : Spot) : files.emptied.linkAt? s = files.linkAt? s := by
  have hplace : s.place files.emptied = s.place files := rfl
  rw [linkAt?, linkAt?, hplace, at?_emptied]
  rcases files.at? (s.place files) with _ | node
  · rfl
  · simp [Node.target?_emptied]

theorem resolveNames_emptied (files : Files)
    (target : Memo → Spot → Text → Except CanonicalError (Memo × Resolved)) (memo : Memo)
    (spot : Spot) (names : List Text) :
    resolveNames files.emptied target memo spot names
      = resolveNames files target memo spot names := by
  induction names generalizing memo spot with
  | nil => rfl
  | cons name rest ih => simp only [resolveNames, linkAt?_emptied, ih]

theorem resolve_emptied (files : Files) (depth : Nat) :
    files.emptied.resolve depth = files.resolve depth := by
  induction depth with
  | zero => rfl
  | succ depth ih =>
    funext memo spot path
    rw [resolve, resolve, resolveNames_emptied, ih]

/-- Nor does the canonical form of a path. -/
theorem canonical_emptied (files : Files) (path : Path) :
    files.emptied.canonical path = files.canonical path := by
  simp only [canonical, resolve_emptied, locate_emptied]
  rfl

section Plant

variable {files : Files} {place : List Text} {a : ByteArray}
  (hat : files.at? place = some (.file a)) (b : ByteArray)

include hat

theorem emptied_plant_file : (files.plant place (.file b)).emptied = files.emptied := by
  have h := Node.emptied_plant_file hat b
  have hentries : (Node.plant (.file b) place files.root).emptied.entries
      = files.root.emptied.entries := by rw [h]
  rw [Node.entries_emptied, Node.entries_emptied] at hentries
  exact congrArg (Files.mk · files.workingDirectory files.extraDepth) hentries

theorem locate_plant (path : Text) :
    (files.plant place (.file b)).locate path = files.locate path := by
  rw [← locate_emptied, emptied_plant_file hat, locate_emptied]

theorem canonical_plant (path : Path) :
    (files.plant place (.file b)).canonical path = files.canonical path := by
  rw [← canonical_emptied, emptied_plant_file hat, canonical_emptied]

theorem root_plant : (files.plant place (.file b)).root = Node.plant (.file b) place files.root := by
  rcases place with _ | ⟨name, names⟩
  · cases hat
  · rfl

omit hat in
theorem read_of_locate {path : Text} {place : List Text} (h : files.locate path = .ok place) :
    files.read path = match files.at? place with
      | some (.file bytes) => .ok bytes
      | some (.directory _) => .error (.system .isDirectory)
      | _ => .error (.system .noSuchFile) := by
  simp only [read, h]
  rfl

/-- The planted bytes are read wherever the file was. -/
theorem read_plant_of_locate {path : Text} (h : files.locate path = .ok place) :
    files.read path = .ok a ∧ (files.plant place (.file b)).read path = .ok b := by
  have hplant : (files.plant place (.file b)).at? place = some (.file b) := by
    rw [at?, root_plant hat, Node.at?_plant_self]
  rw [read_of_locate h, hat, read_of_locate ((locate_plant hat b path).trans h), hplant]
  exact ⟨rfl, rfl⟩

/-- Everything else is read as before. -/
theorem read_plant_of_ne {path : Text} (h : files.locate path ≠ .ok place) :
    (files.plant place (.file b)).read path = files.read path := by
  rcases hlocate : files.locate path with error | other
  · simp only [read, locate_plant hat, hlocate]
    rfl
  · have hne : other ≠ place := fun heq => h (heq ▸ hlocate)
    rw [read_of_locate hlocate, read_of_locate ((locate_plant hat b path).trans hlocate), at?,
      root_plant hat]
    rcases Node.at?_plant_of_ne hat b hne with heq | ⟨entries, entries', hold, hnew⟩
    · rw [heq]
      rfl
    · rw [hnew, at?, hold]

end Plant

end Files

end SearchConfig
