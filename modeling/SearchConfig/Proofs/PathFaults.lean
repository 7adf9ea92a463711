import SearchConfig.Proofs.CanonicalPaths

/-!
# Paths that the operating system does not take

The canonical form of a path is found by a walk along its parts (`walk_eq`), and the parts in front
decide how the walk along all of them goes on (`resolveNames_append`). Where the system takes all
names, a walk fails only where links lead too deep (`eq_deepLinks_of_walk`). So a path has no
canonical form because of a name that the system does not take just if the walk comes to that name
(`canonical_unusable_iff`).
-/

namespace SearchConfig

open SearchConfig.Path

namespace Files

/-- Does the operating system take the targets of all links and the names on the way to the working
directory? -/
structure IsUsable (files : Files) : Prop where
  targets : ∀ place target, files.at? place = some (.link target) → target.IsUsable
  workingDirectory : ∀ name ∈ files.workingDirectory, name.IsUsable

variable {files : Files}

theorem IsUsable.madeOf (hfiles : files.IsUsable) : files.MadeOf CodePoint.IsUsable where
  targets place target h := (Text.isUsable_iff target).1 (hfiles.targets place target h)
  workingDirectory name h := (Text.isUsable_iff name).1 (hfiles.workingDirectory name h)

theorem IsUsable.linkAt? (hfiles : files.IsUsable) {s : Spot} {path : Text}
    (h : files.linkAt? s = some path) : path.IsUsable :=
  (Text.isUsable_iff path).2 (hfiles.madeOf.linkAt? h)

section Names

variable {target : Memo → Spot → Text → Except CanonicalError (Memo × Resolved)}

/-- Does a walk fail at most because links lead too deep? -/
def FailsOnlyDeep (x : Except CanonicalError (Memo × Resolved)) : Prop :=
  ∀ e, x = .error e → e = .deepLinks

theorem failsOnlyDeep_ok (ends : Memo × Resolved) : FailsOnlyDeep (.ok ends) := fun _ h => by cases h

/-- A walk along names that the system takes fails only where links lead too deep. -/
theorem failsOnlyDeep_resolveNames (hfiles : files.IsUsable)
    (htarget : ∀ memo spot path, path.IsUsable → FailsOnlyDeep (target memo spot path)) :
    ∀ (names : List Text) (memo : Memo) (spot : Spot), (∀ name ∈ names, name.IsUsable) →
      FailsOnlyDeep (resolveNames files target memo spot names)
  | [], memo, spot, _ => failsOnlyDeep_ok (memo, .whole spot)
  | name :: rest, memo, spot, hnames => by
    obtain ⟨hname, hrest⟩ := List.forall_mem_cons.1 hnames
    have ih := fun memo spot => failsOnlyDeep_resolveNames hfiles htarget rest memo spot hrest
    rw [resolveNames]
    split
    · exact ih memo spot
    split
    · exact ih memo spot.up
    simp only [show name.pathFault? = none from hname]
    rcases hlink : files.linkAt? (spot.down name) with _ | path
    · exact ih memo _
    simp only []
    rcases Entries.get? (spot.down name) memo with _ | _ | known
    · have hinside := htarget (Entries.put (spot.down name) none memo) spot path
        (hfiles.linkAt? hlink)
      simp only []
      rcases hends : target (Entries.put (spot.down name) none memo) spot path with e | ⟨memo', r⟩
      · exact fun e' h => hinside e' (hends.trans (congrArg Except.error (Except.error.inj h)))
      · rcases r with found | path'
        · exact ih _ found
        · exact failsOnlyDeep_ok _
    · exact failsOnlyDeep_ok _
    · exact ih memo known

/-- How a walk goes on from where it has come to. -/
def walkOn (files : Files)
    (target : Memo → Spot → Text → Except CanonicalError (Memo × Resolved)) (rest : List Text) :
    Memo × Resolved → Except CanonicalError (Memo × Resolved)
  | (memo, .whole spot) => resolveNames files target memo spot rest
  | (memo, .endless path) => .ok (memo, .endless (joinPaths path (joined rest)))

/-- The names in front decide how the walk along all names goes on. -/
theorem resolveNames_append {rest : List Text} (hrest : ∀ name ∈ rest, IsName name)
    (hne : rest ≠ []) : ∀ (names : List Text) (memo : Memo) (spot : Spot),
      (∀ name ∈ names, IsName name) →
      resolveNames files target memo spot (names ++ rest)
        = (resolveNames files target memo spot names).bind (walkOn files target rest)
  | [], _, _, _ => rfl
  | name :: names, memo, spot, hnames => by
    obtain ⟨hname, hnames⟩ := List.forall_mem_cons.1 hnames
    have ih := fun memo spot => resolveNames_append hrest hne names memo spot hnames
    have hjoin := joinPaths_joined_append hnames hrest hne
    have hidle : ¬ isIdle name = true := by simp [hname.2]
    rw [List.cons_append, resolveNames, resolveNames, if_neg hidle, if_neg hidle]
    split
    · exact ih memo spot.up
    rcases hfault : name.pathFault? with _ | fault
    · simp only []
      rcases files.linkAt? (spot.down name) with _ | path
      · exact ih memo _
      · simp only []
        rcases Entries.get? (spot.down name) memo with _ | _ | known
        · simp only []
          rcases target (Entries.put (spot.down name) none memo) spot path with e | ⟨memo', r⟩
          · rfl
          · rcases r with found | path'
            · exact ih _ found
            · simp only [Except.bind, walkOn, hjoin]
        · simp only [Except.bind, walkOn, hjoin]
        · exact ih memo known
    · rfl

/-- The walk ends at a name that the system does not take. -/
theorem resolveNames_of_not_isUsable {name : Text} (hname : IsName name) (h : ¬ name.IsUsable)
    (memo : Memo) (spot : Spot) (rest : List Text) :
    ∃ fault, resolveNames files target memo spot (name :: rest) = .error (.unusable fault) := by
  have hidle : ¬ isIdle name = true := by simp [hname.2]
  have habove : name ≠ above := by
    rintro rfl
    exact h (by decide)
  rcases hfault : name.pathFault? with _ | fault
  · exact absurd hfault h
  · refine ⟨fault.behind ((spot.down name).toText.length - name.length), ?_⟩
    rw [resolveNames, if_neg hidle, if_neg habove]
    simp only [hfault]

theorem resolveNames_idle {name : Text} (h : isIdle name = true) (memo : Memo) (spot : Spot)
    (rest : List Text) :
    resolveNames files target memo spot (name :: rest)
      = resolveNames files target memo spot rest := by
  rw [resolveNames, if_pos h]

theorem resolveNames_joined {parts : List Text} (h : ∀ part ∈ parts, IsName part) (memo : Memo)
    (spot : Spot) :
    resolveNames files target memo spot ((joined parts).split slash)
      = resolveNames files target memo spot parts := by
  rcases parts with _ | ⟨part, parts⟩
  · exact resolveNames_idle rfl memo spot []
  · rw [split_joined (fun part hpart => (h part hpart).1) (List.cons_ne_nil _ _)]

/-- The walk along the text of a path is one along its parts. -/
theorem resolveNames_toText {p : Path} (h : ∀ part ∈ p.parts, IsName part) (memo : Memo)
    (spot : Spot) :
    resolveNames files target memo spot (p.toText.split slash)
      = resolveNames files target memo spot p.parts := by
  have hslash : ∀ t : Text, Text.split slash (slash :: t) = [] :: t.split slash := fun t => by
    rw [Text.split, if_pos rfl]
  have hempty : isIdle [] = true := rfl
  unfold toText
  split
  · split
    · rename_i hnil
      rw [List.isEmpty_iff.1 hnil]
      exact resolveNames_idle rfl memo spot []
    · exact resolveNames_joined h memo spot
  · rw [hslash, resolveNames_idle hempty, resolveNames_joined h]
  · rw [hslash, hslash, resolveNames_idle hempty, resolveNames_idle hempty, resolveNames_joined h]

end Names

theorem failsOnlyDeep_resolve (hfiles : files.IsUsable) (calls : Nat) :
    ∀ (memo : Memo) (spot : Spot) (path : Text), path.IsUsable →
      FailsOnlyDeep (files.resolve calls memo spot path) := by
  induction calls with
  | zero => exact fun _ _ _ _ e h => (Except.error.inj h).symm
  | succ calls ih =>
    intro memo spot path hpath
    rw [resolve]
    exact failsOnlyDeep_resolveNames hfiles ih _ memo _ ((isUsable_iff_split path).1 hpath)

/-- If the system takes every name, the walk fails only where links lead too deep. -/
theorem eq_deepLinks_of_walk (hfiles : files.IsUsable) {p : Path}
    (h : ∀ part ∈ p.parts, part.IsUsable) {e : CanonicalError} (hwalk : files.walk p = .error e) :
    e = .deepLinks :=
  failsOnlyDeep_resolve hfiles _ [] ⟨false, []⟩ p.toText ((isUsable_toText_iff p).2 h) e hwalk

/-- The spot at which the walk along a path begins. -/
def start (p : Path) : Spot := ⟨p.isAbsolute, []⟩

theorem head?_toText {p : Path} (h : ∀ part ∈ p.parts, IsName part) :
    p.toText.head? = some slash ↔ p.isAbsolute = true := by
  obtain ⟨anchor, parts⟩ := p
  rcases anchor
  · have hhead : Path.toText ⟨.relative, parts⟩ = if parts.isEmpty then here else joined parts := rfl
    rw [hhead]
    split
    · simp only [isAbsolute]
      decide
    · simpa [isAbsolute] using head?_joined h
  · simp [toText, isAbsolute]
  · simp [toText, isAbsolute]

theorem walk_eq {p : Path} (h : ∀ part ∈ p.parts, IsName part) :
    files.walk p = resolveNames files (files.resolve files.linkDepth) [] (start p) p.parts := by
  have hstart : (if p.toText.head? = some slash then Spot.root else ⟨false, []⟩) = start p := by
    rcases habsolute : p.isAbsolute
    · rw [if_neg (by simp [head?_toText h, habsolute]), start, habsolute]
    · rw [if_pos (by simp [head?_toText h, habsolute]), start, habsolute]
      rfl
  have hwalk : files.walk p = resolveNames files (files.resolve files.linkDepth) []
    (if p.toText.head? = some slash then Spot.root else ⟨false, []⟩) (p.toText.split slash) := rfl
  rw [hwalk, hstart, resolveNames_toText h]

/-- A path leads nowhere because of a fault if it is none that the system takes. -/
theorem locate_unusable_iff (files : Files) (path : Text) :
    (∃ fault, files.locate path = .error (.unusable fault)) ↔ ¬ path.IsUsable := by
  unfold locate Text.IsUsable
  rcases path.pathFault? with _ | fault
  · simp only [not_true_eq_false, iff_false, not_exists]
    intro fault
    split
    · simp
    · rcases files.follow _ _ _ with _ | _ <;> simp [Except.mapError]
  · simp

theorem canonical_unusable_iff_final {p : Path} {memo : Memo} {r : Resolved}
    (h : files.walk p = .ok (memo, r)) :
    (∃ fault, files.canonical p = .error (.unusable fault))
      ↔ ¬ (r.final files).toText.IsUsable := by
  rw [← locate_unusable_iff files, canonical_of_walk h]
  rcases files.locate (r.final files).toText with (fault | error) | place
  · simp
  · cases error <;> simp
  · simp

/-- Does the walk along the parts in front lead to the rest of a path? It does if it ends somewhere,
and not if links lead too deep on the way. If it comes to links without end, the rest is put behind
them and the steps upwards are taken, and then what the system does not take must still be there. -/
def LeadsTo (files : Files) (rest : List Text) : Except CanonicalError (Memo × Resolved) → Prop
  | .error _ => False
  | .ok (_, .whole _) => True
  | .ok (_, .endless path) =>
    ¬ (files.absolute (joinPaths path (joined rest))).toText.IsUsable

/-- Does the walk along a path come to a name that the system does not take? -/
def MeetsFault (files : Files) (p : Path) : Prop :=
  ∃ before name after, p.parts = before ++ name :: after
    ∧ (∀ part ∈ before, part.IsUsable) ∧ ¬ name.IsUsable
    ∧ files.LeadsTo (name :: after) (files.walk { p with parts := before })

theorem walk_append (files : Files) {p : Path} (hp : ∀ part ∈ p.parts, IsName part)
    {before rest : List Text} (hparts : p.parts = before ++ rest) (hne : rest ≠ []) :
    files.walk p = (files.walk { p with parts := before }).bind
      (walkOn files (files.resolve files.linkDepth) rest) := by
  rw [walk_eq hp]
  rw [hparts, List.forall_mem_append] at hp
  rw [walk_eq (p := { p with parts := before }) hp.1, hparts]
  exact resolveNames_append hp.2 hne before [] (start p) hp.1

theorem canonical_unusable_iff_leadsTo (hfiles : files.IsUsable) {p : Path}
    (hp : ∀ part ∈ p.parts, IsName part) {before after : List Text} {name : Text}
    (hparts : p.parts = before ++ name :: after) (hbefore : ∀ part ∈ before, part.IsUsable)
    (hname : ¬ name.IsUsable) :
    (∃ fault, files.canonical p = .error (.unusable fault))
      ↔ files.LeadsTo (name :: after) (files.walk { p with parts := before }) := by
  have hnames := hp
  rw [hparts, List.forall_mem_append, List.forall_mem_cons] at hnames
  have happend := walk_append files hp hparts (List.cons_ne_nil _ _)
  rcases hwalk : files.walk { p with parts := before } with e | ⟨memo, r⟩ <;>
    rw [hwalk] at happend
  · obtain rfl := eq_deepLinks_of_walk hfiles (p := { p with parts := before }) hbefore hwalk
    rw [canonical_of_walk_error happend]
    simp [LeadsTo]
  rcases r with spot | path
  · obtain ⟨fault, hfault⟩ := resolveNames_of_not_isUsable hnames.2.1 hname memo spot after
    simp only [LeadsTo, iff_true]
    exact ⟨fault, canonical_of_walk_error (happend.trans hfault)⟩
  · exact canonical_unusable_iff_final happend

theorem canonical_of_isUsable (hfiles : files.IsUsable) {p : Path}
    (hp : ∀ part ∈ p.parts, part.IsUsable) (fault : PathFault) :
    files.canonical p ≠ .error (.unusable fault) := by
  intro h
  rcases hwalk : files.walk p with e | ⟨memo, r⟩
  · obtain rfl := eq_deepLinks_of_walk hfiles hp hwalk
    rw [canonical_of_walk_error hwalk] at h
    cases h
  have hfinal := madeOf_final CodePoint.suitsPaths_isUsable hfiles.madeOf
    (fun part hpart => (Text.isUsable_iff part).1 (hp part hpart)) hwalk
  exact (canonical_unusable_iff_final hwalk).1 ⟨fault, h⟩ ((Text.isUsable_iff _).2 hfinal)

/-- A path has no canonical form because of a name that the system does not take just if the walk
along it comes to that name. -/
theorem canonical_unusable_iff (hfiles : files.IsUsable) {p : Path}
    (hp : ∀ part ∈ p.parts, IsName part) :
    (∃ fault, files.canonical p = .error (.unusable fault)) ↔ files.MeetsFault p := by
  constructor
  · rintro ⟨fault, h⟩
    rcases hfind : p.parts.find? fun part => !decide part.IsUsable with _ | name
    · have husable : ∀ part ∈ p.parts, part.IsUsable := by simpa using hfind
      exact absurd h (canonical_of_isUsable hfiles husable fault)
    · obtain ⟨hname, before, after, hparts, hbefore⟩ := List.find?_eq_some_iff_append.1 hfind
      have hname : ¬ name.IsUsable := by simpa using hname
      have hbefore : ∀ part ∈ before, part.IsUsable := by simpa using hbefore
      exact ⟨before, name, after, hparts, hbefore, hname,
        (canonical_unusable_iff_leadsTo hfiles hp hparts hbefore hname).1 ⟨fault, h⟩⟩
  · rintro ⟨before, name, after, hparts, hbefore, hname, h⟩
    exact (canonical_unusable_iff_leadsTo hfiles hp hparts hbefore hname).2 h

end Files

end SearchConfig
