import SearchConfig.Proofs.OrderedEntries
import SearchConfig.Proofs.PathTexts

/-!
# What canonical paths are made of

The canonical form of a path is found by a walk along its names, and the place that the walk comes
to decides (`canonical_of_walk`). What the code points of the path, of the targets of links and of
the way to the working directory have, if the slash and the dot have it, the code points of the
canonical form have as well (`madeOf_of_canonical`): a step keeps it of the spot, of the spots that
links are known to lead to and of the names that are left.
-/

namespace SearchConfig

open SearchConfig.Path

variable {P : CodePoint → Prop}

/-- Are all parts of a spot made of the code points? -/
def Spot.MadeOf (P : CodePoint → Prop) (s : Spot) : Prop := ∀ part ∈ s.parts, part.MadeOf P

namespace Spot

theorem madeOf_down {s : Spot} {name : Text} (hs : s.MadeOf P) (hname : name.MadeOf P) :
    (s.down name).MadeOf P := by
  rw [MadeOf, down, List.forall_mem_append]
  exact ⟨hs, List.forall_mem_singleton.2 hname⟩

theorem madeOf_up (hP : CodePoint.SuitsPaths P) {s : Spot} (hs : s.MadeOf P) : s.up.MadeOf P := by
  unfold up
  split
  · split
    · exact hs
    · exact madeOf_down hs (madeOf_above hP)
  · split
    · exact madeOf_down hs (madeOf_above hP)
    · exact fun part hpart => hs part (List.dropLast_subset _ hpart)

theorem madeOf_toText (hP : CodePoint.SuitsPaths P) {s : Spot} (hs : s.MadeOf P) :
    s.toText.MadeOf P := by
  unfold toText
  split
  · rw [Text.madeOf_cons, madeOf_joined_iff hP]
    exact ⟨hP.slash, hs⟩
  · exact (madeOf_joined_iff hP s.parts).2 hs

end Spot

namespace Files

/-- Are the targets of all links and the names on the way to the working directory made of the code
points? -/
structure MadeOf (P : CodePoint → Prop) (files : Files) : Prop where
  targets : ∀ place target, files.at? place = some (.link target) → target.MadeOf P
  workingDirectory : ∀ name ∈ files.workingDirectory, name.MadeOf P

/-- Are all spots that links are known to lead to made of the code points? -/
def Memo.MadeOf (P : CodePoint → Prop) (memo : Memo) : Prop :=
  ∀ s found, Entries.get? s memo = some (some found) → Spot.MadeOf P found

def Resolved.MadeOf (P : CodePoint → Prop) : Resolved → Prop
  | whole spot => spot.MadeOf P
  | endless path => path.MadeOf P

/-- If a walk ends, are the spots that it knows and the one it comes to made of the code points? -/
def EndsMadeOf (P : CodePoint → Prop) (x : Except CanonicalError (Memo × Resolved)) : Prop :=
  ∀ memo r, x = .ok (memo, r) → Memo.MadeOf P memo ∧ r.MadeOf P

theorem EndsMadeOf.ok {memo : Memo} {r : Resolved} (hmemo : memo.MadeOf P) (hr : r.MadeOf P) :
    EndsMadeOf P (.ok (memo, r)) := by
  intro memo' r' h
  obtain ⟨rfl, rfl⟩ := Prod.mk.inj (Except.ok.inj h)
  exact ⟨hmemo, hr⟩

theorem Memo.madeOf_nil : Memo.MadeOf P [] := fun s found h => by simp [Entries.get?] at h

theorem Memo.madeOf_put {memo : Memo} (h : memo.MadeOf P) (s : Spot) {o : Option Spot}
    (ho : ∀ found ∈ o, found.MadeOf P) : Memo.MadeOf P (Entries.put s o memo) := by
  intro s' found hfound
  rw [Entries.get?_put] at hfound
  split at hfound
  · exact ho found (Option.some.inj hfound)
  · exact h s' found hfound

variable {files : Files} (hP : CodePoint.SuitsPaths P) (hfiles : files.MadeOf P)

include hfiles

theorem MadeOf.linkAt? {s : Spot} {path : Text} (h : files.linkAt? s = some path) :
    path.MadeOf P := by
  unfold Files.linkAt? at h
  split at h
  · cases h
  · obtain ⟨node, hnode, htarget⟩ := Option.bind_eq_some_iff.1 h
    rcases node with _ | target | _ <;> cases htarget
    exact hfiles.targets _ _ hnode

include hP

theorem madeOf_resolveNames
    {target : Memo → Spot → Text → Except CanonicalError (Memo × Resolved)}
    (htarget : ∀ memo spot path, Memo.MadeOf P memo → spot.MadeOf P → path.MadeOf P →
      EndsMadeOf P (target memo spot path)) :
    ∀ (names : List Text) (memo : Memo) (spot : Spot), (∀ name ∈ names, name.MadeOf P) →
      memo.MadeOf P → spot.MadeOf P → EndsMadeOf P (resolveNames files target memo spot names)
  | [], _, _, _, hmemo, hspot => .ok hmemo hspot
  | name :: rest, memo, spot, hnames, hmemo, hspot => by
    obtain ⟨hname, hrest⟩ := List.forall_mem_cons.1 hnames
    have ih := madeOf_resolveNames htarget rest
    have hnext : (spot.down name).MadeOf P := Spot.madeOf_down hspot hname
    have hjoined : (joined rest).MadeOf P := (madeOf_joined_iff hP rest).2 hrest
    rw [resolveNames]
    split
    · exact ih memo spot hrest hmemo hspot
    split
    · exact ih memo spot.up hrest hmemo (Spot.madeOf_up hP hspot)
    rcases name.pathFault? with _ | fault
    · simp only []
      rcases hlink : files.linkAt? (spot.down name) with _ | path
      · exact ih memo _ hrest hmemo hnext
      simp only []
      rcases hknown : Entries.get? (spot.down name) memo with _ | _ | known
      -- The spot is open while the target is walked and known afterwards.
      · have hmemo' := Memo.madeOf_put hmemo (spot.down name) (o := none) (by simp)
        have hends := htarget _ spot path hmemo' hspot (hfiles.linkAt? hlink)
        simp only []
        rcases htargetEq : target (Entries.put (spot.down name) none memo) spot path
          with e | ⟨memo'', r⟩
        · exact fun _ _ h => by cases h
        obtain ⟨hmemo'', hr⟩ := hends _ _ htargetEq
        rcases r with found | path'
        · have hfound : ∀ spot ∈ some found, Spot.MadeOf P spot := fun _ h => Option.some.inj h ▸ hr
          exact ih _ found hrest (Memo.madeOf_put hmemo'' _ hfound) hr
        · exact .ok hmemo'' (madeOf_joinPaths hP hr hjoined)
      · exact .ok hmemo (madeOf_joinPaths hP (Spot.madeOf_toText hP hnext) hjoined)
      · exact ih memo known hrest hmemo (hmemo _ _ hknown)
    · exact fun _ _ h => by cases h

theorem madeOf_resolve (depth : Nat) :
    ∀ (memo : Memo) (spot : Spot) (path : Text), memo.MadeOf P → spot.MadeOf P → path.MadeOf P →
      EndsMadeOf P (files.resolve depth memo spot path) := by
  induction depth with
  | zero => exact fun _ _ _ _ _ _ _ _ h => by cases h
  | succ depth ih =>
    intro memo spot path hmemo hspot hpath
    rw [resolve]
    refine madeOf_resolveNames hP hfiles ih _ memo _ ((madeOf_iff_split hP path).1 hpath) hmemo ?_
    split
    · exact fun part hpart => absurd hpart List.not_mem_nil
    · exact hspot

theorem madeOf_absolute {path : Text} (h : path.MadeOf P) :
    (files.absolute path).toText.MadeOf P := by
  have hparts := (madeOf_toText_iff hP _).1 ((madeOf_toText_ofText_iff hP path).2 h)
  rw [madeOf_toText_iff hP]
  intro part hpart
  have hmem := mem_of_mem_cleanParts hpart
  unfold append at hmem
  split at hmem
  · exact hparts part hmem
  · rcases List.mem_append.1 hmem with hmem | hmem
    · exact hfiles.workingDirectory part hmem
    · exact hparts part hmem

omit hP hfiles

/-- The walk along a path that its canonical form is found by. -/
def walk (files : Files) (p : Path) : Except CanonicalError (Memo × Resolved) :=
  files.resolve (files.linkDepth + 1) [] ⟨false, []⟩ p.toText

/-- The path that a walk has come to. -/
def Resolved.final (files : Files) : Resolved → Path
  | whole spot => files.absolute spot.toText
  | endless path => files.absolute path

theorem canonical_of_walk_error {p : Path} {e : CanonicalError} (h : files.walk p = .error e) :
    files.canonical p = .error e := by
  rw [walk] at h
  rw [canonical, h]
  rfl

/-- The place that the path leads to which the walk has come to decides. -/
theorem canonical_of_walk {p : Path} {memo : Memo} {r : Resolved}
    (h : files.walk p = .ok (memo, r)) :
    files.canonical p = match files.locate (r.final files).toText with
      | .error (.unusable fault) => .error (.unusable fault)
      | .error (.system .linkLoop) => .error .endlessLinks
      | _ => .ok (r.final files).toText := by
  rw [walk] at h
  rw [canonical, h]
  rcases r with spot | path <;> rfl

/-- A canonical form is what the walk along the path has come to. -/
theorem exists_walk_of_canonical {p : Path} {t : Text} (h : files.canonical p = .ok t) :
    ∃ memo r, files.walk p = .ok (memo, r) ∧ t = (r.final files).toText := by
  rcases hwalk : files.walk p with e | ⟨memo, r⟩
  · rw [canonical_of_walk_error hwalk] at h
    cases h
  · rw [canonical_of_walk hwalk] at h
    split at h
    · cases h
    · cases h
    · exact ⟨memo, r, rfl, (Except.ok.inj h).symm⟩

theorem exists_absolute_of_canonical {p : Path} {t : Text} (h : files.canonical p = .ok t) :
    ∃ path, t = (files.absolute path).toText := by
  obtain ⟨memo, r, -, rfl⟩ := exists_walk_of_canonical h
  rcases r with spot | path
  · exact ⟨spot.toText, rfl⟩
  · exact ⟨path, rfl⟩

include hP hfiles

/-- What a path is made of, what its walk comes to is made of. -/
theorem madeOf_final {p : Path} (hp : ∀ part ∈ p.parts, part.MadeOf P) {memo : Memo} {r : Resolved}
    (h : files.walk p = .ok (memo, r)) : (r.final files).toText.MadeOf P := by
  obtain ⟨-, hr⟩ := madeOf_resolve hP hfiles _ [] ⟨false, []⟩ _ Memo.madeOf_nil
    (fun _ hpart => absurd hpart List.not_mem_nil) ((madeOf_toText_iff hP p).2 hp) _ _ h
  rcases r with spot | path
  · exact madeOf_absolute hP hfiles (Spot.madeOf_toText hP hr)
  · exact madeOf_absolute hP hfiles hr

theorem madeOf_of_canonical {p : Path} (hp : ∀ part ∈ p.parts, part.MadeOf P) {t : Text}
    (h : files.canonical p = .ok t) : t.MadeOf P := by
  obtain ⟨memo, r, hwalk, rfl⟩ := exists_walk_of_canonical h
  exact madeOf_final hP hfiles hp hwalk

end Files

end SearchConfig
