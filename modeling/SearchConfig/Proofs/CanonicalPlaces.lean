import SearchConfig.Proofs.ConfigDirectory
import SearchConfig.Proofs.LoadErrors

/-!
# Places that canonical paths name

A walk that begins at a place without links on the way ends at one (`Leads.isPhysical`), and the path
of such a place is its own canonical form (`IsPlace.canonical`). So a relative database path whose
walk ends is taken to a place without links on the way, unless a link is overlooked; any other is
taken to an absolute path without steps upwards at least, or refused
(`Config.resolveDbPath_canonical`).
-/

namespace SearchConfig

open SearchConfig.Path

namespace Files

variable {files : Files}

section Physical

variable {place : List Text}

theorem isPhysical_nil (files : Files) : files.IsPhysical [] := by
  intro way rest hway
  rw [(List.append_eq_nil_iff.1 hway.symm).1]
  rfl

theorem IsPhysical.of_append {rest : List Text} (h : files.IsPhysical (place ++ rest)) :
    files.IsPhysical place := by
  rintro way rest' rfl
  exact h way (rest' ++ rest) (List.append_assoc ..)

theorem IsPhysical.up (h : files.IsPhysical place) : files.IsPhysical place.dropLast := by
  obtain ⟨last, hlast⟩ := List.dropLast_prefix place
  rw [← hlast] at h
  exact h.of_append

theorem IsPhysical.down (h : files.IsPhysical place) {name : Text}
    (hname : (files.at? (place ++ [name])).bind Node.target? = none) :
    files.IsPhysical (place ++ [name]) := by
  intro way rest hway
  rcases List.eq_nil_or_concat rest with rfl | ⟨rest, last, rfl⟩
  · rw [List.append_nil] at hway
    rw [← hway]
    exact hname
  · rw [List.concat_eq_append, ← List.append_assoc] at hway
    exact h way rest (List.append_inj' hway rfl).1

/-- A walk from a place without links on the way ends at one. -/
theorem Leads.isPhysical {s found : Spot} {names : List Text} {met : List Meeting}
    (h : files.Leads s names met found) (hs : s.IsSpelled) (hnames : ∀ name ∈ names, slash ∉ name)
    (hplace : files.IsPhysical (s.place files)) : files.IsPhysical (found.place files) := by
  induction h with
  | arrived => exact hplace
  | idle _ _ ih => exact ih hs (List.forall_mem_cons.1 hnames).2 hplace
  | up _ _ ih =>
    refine ih hs.up (List.forall_mem_cons.1 hnames).2 ?_
    rw [Spot.place_up files hs]
    exact hplace.up
  | down hidle habove htarget _ ih =>
    obtain ⟨hname, hrest⟩ := List.forall_mem_cons.1 hnames
    refine ih (hs.down ⟨hname, hidle⟩ fun _ => habove) hrest ?_
    rw [targetAt?, Spot.place_down files _ habove] at htarget
    rw [Spot.place_down files _ habove]
    exact hplace.down htarget
  | @link s _ _ _ target _ _ _ _ _ _ hinside _ ihinside ih =>
    have hpieces : ∀ name ∈ target.split slash, slash ∉ name := Text.not_mem_of_mem_split
    refine ih (hinside.isSpelled (hs.base target) hpieces) (List.forall_mem_cons.1 hnames).2
      (ihinside (hs.base target) hpieces ?_)
    rw [Spot.place_base, origin]
    split
    · exact isPhysical_nil files
    · exact hplace

/-- A walk down a place without links on the way meets none. -/
theorem leads_down {s : Spot} {names : List Text}
    (h : files.IsPhysical (s.place files ++ names))
    (hnames : ∀ name ∈ names, IsName name ∧ name ≠ above) :
    files.Leads s names [] { s with parts := s.parts ++ names } := by
  induction names generalizing s with
  | nil =>
    rw [List.append_nil]
    exact .arrived
  | cons name names ih =>
    obtain ⟨⟨hname, habove⟩, hnames⟩ := List.forall_mem_cons.1 hnames
    have hplace : (s.down name).place files ++ names = s.place files ++ name :: names := by
      rw [Spot.place_down files s habove, List.append_assoc, List.singleton_append]
    have hdown := ih (s := s.down name) (hplace ▸ h) hnames
    rw [Spot.down, List.append_assoc, List.singleton_append] at hdown
    refine .down hname.2 habove ?_ hdown
    rw [targetAt?, Spot.place_down files s habove]
    exact h (s.place files ++ [name]) names (by rw [List.append_assoc, List.singleton_append])

end Physical

/-- Does the walk along a path end somewhere? -/
def WalkEnds (files : Files) (p : Path) : Prop :=
  ∃ met found, files.Leads (start p) p.parts met found

/-- Is a place reached by names alone that the system takes, with no link on the way? -/
structure IsPlace (files : Files) (place : List Text) : Prop where
  names : ∀ name ∈ place, IsName name ∧ name ≠ above
  usable : ∀ name ∈ place, name.IsUsable
  physical : files.IsPhysical place

theorem IsPlace.leads {place : List Text} (h : files.IsPlace place) :
    files.Leads .root place [] ⟨true, place⟩ := leads_down (s := .root) h.physical h.names

theorem IsPlace.ofText {place : List Text} (h : files.IsPlace place) :
    Path.ofText (toText ⟨.root, place⟩) = ⟨.root, place⟩ :=
  ofText_slash_joined fun name hname => (h.names name hname).1

/-- The path of a place without links on the way is its own canonical form. -/
theorem IsPlace.canonical {place : List Text} (h : files.IsPlace place) (hfiles : files.IsWalkable) :
    files.canonical ⟨.root, place⟩ = .ok (toText ⟨.root, place⟩) :=
  canonical_of_isPhysical (p := ⟨.root, place⟩) hfiles (fun name hname => (h.names name hname).1)
    h.usable h.leads (fun _ h => absurd h List.not_mem_nil) h.physical

theorem place_start_isPhysical (hfiles : files.IsWalkable)
    (hcurrent : files.IsPhysical files.workingDirectory) (p : Path) :
    files.IsPhysical ((start p).place files) := by
  rw [start, Spot.place]
  split
  · exact isPhysical_nil files
  · rw [List.append_nil, cleanParts_of_not_mem fun hmem => (hfiles.named _ hmem).2 rfl]
    exact hcurrent

theorem isUsable_of_leads (hfiles : files.IsWalkable) {p : Path} (hp : ∀ part ∈ p.parts, IsName part)
    {met : List Meeting} {found : Spot} (h : files.Leads (start p) p.parts met found)
    (hmet : ∀ link ∈ met, link.IsFollowed files.linkDepth) (hfault : ¬ files.MeetsFault p) :
    ∀ part ∈ p.parts, part.IsUsable := by
  -- The walk to the first name that the system does not take ends, so the search comes to it.
  by_contra husable
  rcases hfind : p.parts.find? fun part => !decide part.IsUsable with _ | name
  · exact husable (by simpa using hfind)
  obtain ⟨hname, before, after, hparts, hbefore⟩ := List.find?_eq_some_iff_append.1 hfind
  have hname : ¬ name.IsUsable := by simpa using hname
  have hbefore : ∀ part ∈ before, part.IsUsable := by simpa using hbefore
  rw [hparts] at h
  obtain ⟨met', mid, after', rfl, hleads, -⟩ := Leads.append_iff.1 h
  rw [hparts, List.forall_mem_append] at hp
  obtain ⟨memo, hwalk, -⟩ := walk_of_leads (p := { p with parts := before }) hfiles hp.1 hbefore
    hleads fun link hlink => hmet link (List.mem_append_left _ hlink)
  exact hfault ⟨before, name, after, hparts, hbefore, hname, by rw [hwalk]; trivial⟩

theorem not_meetsFault {p : Path} (husable : ∀ part ∈ p.parts, part.IsUsable) :
    ¬ files.MeetsFault p := by
  rintro ⟨before, name, after, hparts, -, hname, -⟩
  exact hname (husable name (by simp [hparts]))

/-- What the system takes has a canonical form that it takes. -/
theorem isUsable_of_canonical (hfiles : files.IsUsable) {p q : Path}
    (husable : ∀ part ∈ p.parts, part.IsUsable) (h : files.canonical p = .ok q.toText) :
    ∀ part ∈ q.parts, part.IsUsable := by
  have hmade := madeOf_of_canonical CodePoint.suitsPaths_isUsable hfiles.madeOf
    (fun part hpart => (Text.isUsable_iff part).1 (husable part hpart)) h
  rw [← Text.isUsable_iff] at hmade
  exact (isUsable_toText_iff q).1 hmade

/-- A path whose walk ends is taken to a place without links on the way, if the search follows every
link that is met. -/
theorem canonical_isPlace (hfiles : files.IsWalkable)
    (hcurrent : files.IsPhysical files.workingDirectory) {p : Path}
    (hp : ∀ part ∈ p.parts, IsName part) (husable : ∀ part ∈ p.parts, part.IsUsable)
    {met : List Meeting} {found : Spot} (h : files.Leads (start p) p.parts met found)
    (hmet : ∀ link ∈ met, link.IsFollowed files.linkDepth) :
    files.canonical p = .ok (toText ⟨.root, found.place files⟩)
      ∧ files.IsPlace (found.place files) := by
  have hslash : ∀ part ∈ p.parts, slash ∉ part := fun part hpart => (hp part hpart).1
  have hphysical := h.isPhysical (isSpelled_start p) hslash
    (place_start_isPhysical hfiles hcurrent p)
  have hcanonical := canonical_of_isPhysical hfiles hp husable h hmet hphysical
  exact ⟨hcanonical, hfiles.place (h.isSpelled (isSpelled_start p) hslash),
    isUsable_of_canonical hfiles.toIsUsable husable hcanonical, hphysical⟩

/-- Does the walk along a path meet a link inside of more links than are followed? -/
def ExceedsDepth (files : Files) (p : Path) : Prop :=
  ∃ met found link, files.Leads (start p) p.parts met found ∧ link ∈ met
    ∧ files.linkDepth ≤ link.depth

theorem Leads.exceedsDepth_iff {p : Path} {met : List Meeting} {found : Spot}
    (h : files.Leads (start p) p.parts met found) :
    files.ExceedsDepth p ↔ ∃ link ∈ met, files.linkDepth ≤ link.depth :=
  h.exists_met_iff _

theorem isFollowed_of_leads {p : Path} (hseen : ¬ files.OverlooksLink p)
    (hdepth : ¬ files.ExceedsDepth p) {met : List Meeting} {found : Spot}
    (h : files.Leads (start p) p.parts met found) :
    ∀ link ∈ met, link.IsFollowed files.linkDepth := fun link hlink =>
  { short := Nat.not_le.1 fun hlong => hseen ⟨met, found, link, h, hlink, hlong⟩
    shallow := Nat.not_le.1 fun hdeep => hdepth ⟨met, found, link, h, hlink, hdeep⟩ }

theorem IsWalkable.absolute (hfiles : files.IsWalkable) (path : Text) :
    ∀ part ∈ (files.absolute path).parts, IsName part ∧ part ≠ above := by
  intro part hpart
  refine ⟨?_, fun heq => not_mem_cleanParts _ (heq ▸ hpart)⟩
  exact isName_of_mem_append (fun name hname => (hfiles.named name hname).1)
    (fun _ => isName_of_mem_ofText) part (mem_of_mem_cleanParts hpart)

end Files

open Files

namespace Config

/-- A relative database path is taken to a place without links on the way, which is its own canonical
form, if the walk along it ends, overlooks no link and goes no deeper than links are followed. Any
other is taken to an absolute path without steps upwards or refused as one that has no place, unless
the walk comes to a name that the system does not take. -/
theorem resolveDbPath_canonical {files : Files} (hfiles : files.IsWalkable)
    (hcurrent : files.IsPhysical files.workingDirectory) (name : Text) {dbPath : Text}
    (hrelative : (Path.ofText dbPath).isAbsolute = false) :
    let p := (Path.ofText name).parent.append (.ofText dbPath)
    ((∃ fault, resolveDbPath files dbPath (.ofText name) = .error (.unusable fault))
      ↔ files.MeetsFault p)
    ∧ (¬ files.MeetsFault p →
      (∃ cause, resolveDbPath files dbPath (.ofText name)
          = .error (.failure (unresolvable dbPath (.ofText name) cause)))
        ∨ ∃ q, resolveDbPath files dbPath (.ofText name) = .ok (Path.toText q)
          ∧ q.isAbsolute = true ∧ ∀ part ∈ q.parts, IsName part ∧ part ≠ above)
    ∧ (¬ files.MeetsFault p → files.WalkEnds p → ¬ files.OverlooksLink p → ¬ files.ExceedsDepth p →
      ∃ place, resolveDbPath files dbPath (.ofText name) = .ok (Path.toText ⟨.root, place⟩)
        ∧ (∀ part ∈ place, IsName part ∧ part ≠ above) ∧ files.IsPhysical place
        ∧ files.canonical (.ofText (Path.toText ⟨.root, place⟩))
          = .ok (Path.toText ⟨.root, place⟩)) := by
  intro p
  have hp : ∀ part ∈ p.parts, IsName part := isName_of_mem_parent_append name dbPath
  have hfault := resolveDbPath_meetsFault_iff hfiles.toIsUsable name hrelative
  refine ⟨hfault, fun hmeets => ?_, fun hmeets hends hseen hdepth => ?_⟩
  · rcases resolveDbPath_cases files dbPath (.ofText name) with h | h | ⟨t, h⟩
    · exact absurd (hfault.1 h) hmeets
    · exact .inl h
    · obtain ⟨path, rfl⟩ :=
        exists_absolute_of_canonical ((resolveDbPath_ok_iff _ hrelative _).1 h)
      exact .inr ⟨files.absolute path, h, isAbsolute_absolute files path, hfiles.absolute path⟩
  · obtain ⟨met, found, hleads⟩ := hends
    have hmet := isFollowed_of_leads hseen hdepth hleads
    have husable := isUsable_of_leads hfiles hp hleads hmet hmeets
    obtain ⟨hcanonical, hplace⟩ := canonical_isPlace hfiles hcurrent hp husable hleads hmet
    refine ⟨_, (resolveDbPath_ok_iff _ hrelative _).2 hcanonical, hplace.names, hplace.physical, ?_⟩
    rw [hplace.ofText]
    exact hplace.canonical hfiles

/-- A walk upwards behind a link, and on by a link to what does not exist. -/
theorem resolveDbPath_canonical_missing :
    let files : Files := ⟨[("l", .link "d/e"),
      ("d", .directory [("e", .directory []), ("x", .link "/y")])], [], 0⟩
    files.IsWalkable ∧ files.IsPhysical files.workingDirectory
      ∧ files.WalkEnds (.ofText "l/../x") ∧ ¬ files.OverlooksLink (.ofText "l/../x")
      ∧ ¬ files.ExceedsDepth (.ofText "l/../x")
      ∧ resolveDbPath files "l/../x" (.ofText "config.json") = .ok "/y"
      ∧ files.canonical (.ofText "/y") = .ok "/y" := by
  intro files
  have hwalkable : files.IsWalkable :=
    isWalkable_of_linkPlaces (by decide) (List.forall_mem_nil _)
  have hinside : files.Leads ⟨false, []⟩ [("d" : Text), ("e" : Text)] [] ⟨false, ["d", "e"]⟩ :=
    .down rfl (by decide) rfl (.down rfl (by decide) rfl .arrived)
  have hmissing : files.Leads .root [("" : Text), ("y" : Text)] [] ⟨true, ["y"]⟩ :=
    .idle rfl (.down rfl (by decide) rfl .arrived)
  have hx : ("x" : Text) ≠ above := by decide
  have hafter : files.Leads ⟨false, ["d", "e"]⟩ ["..", "x"]
      (⟨Spot.down ⟨false, ["d"]⟩ "x", 0⟩ :: ([].map Meeting.inside ++ [])) ⟨true, ["y"]⟩ :=
    .up rfl (.link rfl hx rfl hmissing .arrived)
  have hl : ("l" : Text) ≠ above := by decide
  have hleads : files.Leads ⟨false, []⟩ ["l", "..", "x"]
      (⟨Spot.down ⟨false, []⟩ "l", 0⟩ :: ([].map Meeting.inside
        ++ (⟨Spot.down ⟨false, ["d"]⟩ "x", 0⟩ :: ([].map Meeting.inside ++ []))))
      ⟨true, ["y"]⟩ := .link rfl hl rfl hinside hafter
  have hends : files.WalkEnds (.ofText "l/../x") := ⟨_, _, hleads⟩
  have hseen : ¬ files.OverlooksLink (.ofText "l/../x") := by
    rw [hleads.overlooksLink_iff]
    decide
  have hdepth : ¬ files.ExceedsDepth (.ofText "l/../x") := by
    rw [hleads.exceedsDepth_iff]
    decide
  have hmeets : ¬ files.MeetsFault (.ofText "l/../x") := not_meetsFault (by decide)
  have hcurrent : files.IsPhysical files.workingDirectory := isPhysical_nil files
  have hy : resolveDbPath files "l/../x" (.ofText "config.json") = .ok "/y" :=
    (resolveDbPath_ok_iff _ rfl _).2 (by decide +kernel)
  have hrelative : (Path.ofText "l/../x").isAbsolute = false := rfl
  obtain ⟨place, hplace, -, -, hself⟩ :=
    (resolveDbPath_canonical hwalkable hcurrent "config.json" hrelative).2.2 hmeets hends hseen
      hdepth
  rw [Except.ok.inj (hplace.symm.trans hy)] at hself
  exact ⟨hwalkable, hcurrent, hends, hseen, hdepth, hy, hself⟩

/-- Where a loop is met the search gives up, and the steps upwards behind it are taken by name: what
follows them is not searched for links. -/
theorem resolveDbPath_behindLoop :
    let files : Files := ⟨[("loop", .link "loop"), ("x", .link "real"),
      ("real", .directory [])], [], 0⟩
    resolveDbPath files "loop/../x" (.ofText "config.json") = .ok (Path.toText ⟨.root, ["x"]⟩)
      ∧ ¬ files.IsPhysical ["x"] := by
  refine ⟨(resolveDbPath_ok_iff _ rfl _).2 (by decide +kernel), fun h => ?_⟩
  have hx := h ["x"] [] rfl
  cases hx

end Config

end SearchConfig
