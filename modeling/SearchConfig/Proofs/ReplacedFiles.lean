import SearchConfig.Proofs.EmptiedFiles
import SearchConfig.Proofs.Loading

/-!
# Files whose content is replaced

A load depends on what the file is decoded to, and if it is refused, on the number of problems only.
So a file can be replaced by one that is decoded alike (`Config.load_plant_of_decode`), or alike but
for what is not looked at when a configuration is completed (`Config.load_plant_of_outcome`).
-/

namespace SearchConfig

/-- What is decoded, or how many problems there are. -/
def Decoded.outcome {α : Type} : Decoded α → Except Nat α
  | accepted a => .ok a
  | refused problems => .error problems.length

namespace Config

/-- Does completing configurations that are seen alike make configurations that are seen alike? -/
structure IsView {γ : Type} (view : Config → γ) : Prop where
  dbPath : ∀ c d, view c = view d → c.dbPath = d.dbPath
  completed : ∀ c d, view c = view d →
    ∀ place, view { c.normalized with dbPath := place } = view { d.normalized with dbPath := place }

theorem isView_id : IsView id where
  dbPath _ _ h := congrArg ConfigOf.dbPath h
  completed c d h place := by
    obtain rfl : c = d := h
    rfl

variable {files : Files} {place : List Text} {a b : ByteArray} {γ : Type} {view : Config → γ}
  (hat : files.at? place = some (.file a))

include hat

theorem ofFile_plant_of_outcome
    (h : (Decoded.ofBytes decode a).outcome.map view = (Decoded.ofBytes decode b).outcome.map view)
    (path : Path) :
    (ofFile files path).map view = (ofFile (files.plant place (.file b)) path).map view := by
  by_cases hlocate : files.locate path.toText = .ok place
  · obtain ⟨hread, hread'⟩ := Files.read_plant_of_locate hat b hlocate
    rcases ha : Decoded.ofBytes decode a with c | problems <;>
      rcases hb : Decoded.ofBytes decode b with d | problems' <;> rw [ha, hb] at h
    · rw [ofFile_of_accepted hread ha, ofFile_of_accepted hread' hb]
      exact congrArg Except.ok (Except.ok.inj h)
    · cases h
    · cases h
    · have hlength : problems.length = problems'.length := Except.error.inj h
      rw [ofFile_of_refused hread ha, ofFile_of_refused hread' hb, undecodable, undecodable, hlength]
  · rw [ofFile, ofFile, Files.read_plant_of_ne hat b hlocate]

/-- A file that is replaced by one decoded to a configuration that is seen alike, or refused for as
many problems, is loaded alike. -/
theorem load_plant_of_outcome (hview : IsView view)
    (h : (Decoded.ofBytes decode a).outcome.map view = (Decoded.ofBytes decode b).outcome.map view)
    (name : Text) :
    (load files name).map view = (load (files.plant place (.file b)) name).map view := by
  have hfile := ofFile_plant_of_outcome hat h (.ofText name)
  have hresolve : ∀ dbPath config,
      resolveDbPath (files.plant place (.file b)) dbPath config
        = resolveDbPath files dbPath config := fun dbPath config => by
    simp only [resolveDbPath, Files.canonical_plant hat b]
  rcases ha : ofFile files (.ofText name) with e | c <;>
    rcases hb : ofFile (files.plant place (.file b)) (.ofText name) with e' | d <;>
    rw [ha, hb] at hfile
  · rw [load_of_error ha, load_of_error hb]
    exact congrArg Except.error (Except.error.inj hfile)
  · cases hfile
  · cases hfile
  · have hcd : view c = view d := Except.ok.inj hfile
    rw [load_of_ok ha, load_of_ok hb, hresolve, hview.dbPath c d hcd]
    rcases resolveDbPath files d.dbPath (.ofText name) with e | found
    · rfl
    · exact congrArg Except.ok (hview.completed c d hcd found)

/-- A file that is replaced by one decoded to the same, or refused for as many problems, is loaded to
the same or fails alike. -/
theorem load_plant_of_decode
    (h : (Decoded.ofBytes decode a).outcome = (Decoded.ofBytes decode b).outcome) (name : Text) :
    load files name = load (files.plant place (.file b)) name := by
  have hmap : ∀ {ε : Type} (x : Except ε Config), x.map id = x := fun x => by cases x <;> rfl
  have hload := load_plant_of_outcome hat isView_id (congrArg (Except.map id) h) name
  rwa [hmap, hmap] at hload

end Config

end SearchConfig
