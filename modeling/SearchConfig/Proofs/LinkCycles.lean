import Mathlib.Data.List.Perm.Subperm
import SearchConfig.Proofs.CanonicalPlaces

/-!
# Links that lead back to themselves

A walk meets links at places, one behind the other (`Files.Meets`). Where no link is met on the way
along its own target, every walk ends (`HasNoCycle.exists_leads`): the links inside of which a walk
stands have met the link that it comes to next, so this one stands at a place of its own, and there
are no more places than links in the tree.
-/

namespace SearchConfig

open SearchConfig.Path

namespace Files

variable {files : Files}

/-- A walk that follows every link comes from a place along names to a link at another place, and
goes on behind the links that it meets. -/
inductive Meets (files : Files) : List Text → List Text → List Text → Prop
  | idle {place rest link : List Text} {name : Text} (hidle : isIdle name = true)
      (hrest : Meets files place rest link) : Meets files place (name :: rest) link
  | up {place rest link : List Text} {name : Text} (habove : name = above)
      (hrest : Meets files place.dropLast rest link) : Meets files place (name :: rest) link
  | down {place rest link : List Text} {name : Text} (hidle : isIdle name = false)
      (habove : name ≠ above) (htarget : (files.at? (place ++ [name])).bind Node.target? = none)
      (hrest : Meets files (place ++ [name]) rest link) : Meets files place (name :: rest) link
  | here {place rest : List Text} {name target : Text} (hidle : isIdle name = false)
      (habove : name ≠ above) (htarget : files.at? (place ++ [name]) = some (.link target)) :
      Meets files place (name :: rest) (place ++ [name])
  | through {place rest link : List Text} {name target : Text} (hidle : isIdle name = false)
      (habove : name ≠ above) (htarget : files.at? (place ++ [name]) = some (.link target))
      (hrest : Meets files (origin place target) (target.split slash ++ rest) link) :
      Meets files place (name :: rest) link

theorem Meets.append {place names link : List Text} (h : files.Meets place names link)
    (rest : List Text) : files.Meets place (names ++ rest) link := by
  induction h with
  | idle hidle _ ih => exact .idle hidle ih
  | up habove _ ih => exact .up habove ih
  | down hidle habove htarget _ ih => exact .down hidle habove htarget ih
  | here hidle habove htarget => exact .here hidle habove htarget
  | through hidle habove htarget _ ih =>
    rw [List.append_assoc] at ih
    exact .through hidle habove htarget ih

/-- What is met behind the end of a walk is met by the walk that goes on from there. -/
theorem Meets.behind {s found : Spot} {names rest link : List Text} {met : List Meeting}
    (h : files.Meets (found.place files) rest link) (hleads : files.Leads s names met found)
    (hs : s.IsSpelled) (hnames : ∀ name ∈ names, slash ∉ name) :
    files.Meets (s.place files) (names ++ rest) link := by
  induction hleads generalizing rest with
  | arrived => exact h
  | idle hidle _ ih => exact .idle hidle (ih h hs (List.forall_mem_cons.1 hnames).2)
  | up habove _ ih =>
    have hrest := ih h hs.up (List.forall_mem_cons.1 hnames).2
    rw [Spot.place_up files hs] at hrest
    exact .up habove hrest
  | down hidle habove htarget _ ih =>
    obtain ⟨hname, hnames⟩ := List.forall_mem_cons.1 hnames
    have hrest := ih h (hs.down ⟨hname, hidle⟩ fun _ => habove) hnames
    rw [targetAt?, Spot.place_down files _ habove] at htarget
    rw [Spot.place_down files _ habove] at hrest
    exact .down hidle habove htarget hrest
  | @link s _ _ _ target _ _ _ hidle habove htarget hinside _ ihinside ih =>
    have hpieces : ∀ name ∈ target.split slash, slash ∉ name := Text.not_mem_of_mem_split
    have hrest := ihinside (ih h (hinside.isSpelled (hs.base target) hpieces)
      (List.forall_mem_cons.1 hnames).2) (hs.base target) hpieces
    have hat := exists_of_targetAt? htarget
    rw [Spot.place_down files _ habove] at hat
    rw [Spot.place_base] at hrest
    exact .through hidle habove hat hrest

/-- Is the second link met on the way along the target of the first? -/
def Passes (files : Files) (link link' : List Text) : Prop :=
  ∃ place name target, link = place ++ [name] ∧ IsName name ∧ name ≠ above
    ∧ files.at? link = some (.link target)
    ∧ files.Meets (origin place target) (target.split slash) link'

/-- Does no link lead back to itself? -/
def HasNoCycle (files : Files) : Prop := ∀ link, ¬ files.Passes link link

/-- The links at the places are passed one inside the other, and a walk from a place along names
meets only links that they pass. -/
structure StandsInside (files : Files) (links : List (List Text)) (place names : List Text) :
    Prop where
  nodup : links.Nodup
  targets : ∀ link ∈ links, ∃ target, files.at? link = some (.link target)
  passes : ∀ link ∈ links, ∀ link', files.Meets place names link' → files.Passes link link'

namespace StandsInside

variable {links : List (List Text)} {place names : List Text}

theorem of_meets (h : files.StandsInside links place names) {place' names' : List Text}
    (hmeets : ∀ link, files.Meets place' names' link → files.Meets place names link) :
    files.StandsInside links place' names' where
  nodup := h.nodup
  targets := h.targets
  passes link hlink link' hlink' := h.passes link hlink link' (hmeets link' hlink')

theorem length_le (h : files.StandsInside links place names) :
    links.length ≤ files.root.linkPlaces.length := by
  refine (List.subperm_of_subset h.nodup fun link hlink => ?_).length_le
  obtain ⟨target, htarget⟩ := h.targets link hlink
  exact Node.mem_linkPlaces htarget

/-- The link that is met next stands at a place of its own. -/
theorem inside (hcycle : files.HasNoCycle) {name target : Text} {rest : List Text}
    (h : files.StandsInside links place (name :: rest)) (hname : IsName name) (habove : name ≠ above)
    (htarget : files.at? (place ++ [name]) = some (.link target)) :
    files.StandsInside ((place ++ [name]) :: links) (origin place target) (target.split slash) where
  nodup := by
    refine List.nodup_cons.2 ⟨fun hmem => ?_, h.nodup⟩
    exact hcycle _ (h.passes _ hmem _ (.here hname.2 habove htarget))
  targets := List.forall_mem_cons.2 ⟨⟨target, htarget⟩, h.targets⟩
  passes := by
    refine List.forall_mem_cons.2 ⟨fun link' hlink' => ?_, fun link hlink link' hlink' => ?_⟩
    · exact ⟨place, name, target, rfl, hname, habove, htarget, hlink'⟩
    · exact h.passes link hlink link' (.through hname.2 habove htarget (hlink'.append rest))

end StandsInside

/-- Where no link leads back to itself, a walk ends. -/
theorem HasNoCycle.exists_leads_of_inside (hcycle : files.HasNoCycle) (n : Nat) :
    ∀ {links : List (List Text)} {names : List Text} {s : Spot}, s.IsSpelled →
      (∀ name ∈ names, slash ∉ name) → files.StandsInside links (s.place files) names →
      files.root.linkPlaces.length ≤ n + links.length → ∃ met found, files.Leads s names met found := by
  induction n using Nat.strongRecOn with
  | ind n ihn =>
    intro links names
    induction names with
    | nil => exact fun _ _ _ _ => ⟨[], _, .arrived⟩
    | cons name rest ih =>
      intro s hs hnames hinside hn
      obtain ⟨hname, hrest⟩ := List.forall_mem_cons.1 hnames
      rcases hidle : isIdle name
      swap
      · obtain ⟨met, found, hleads⟩ := ih hs hrest (hinside.of_meets fun _ => .idle hidle) hn
        exact ⟨met, found, .idle hidle hleads⟩
      by_cases habove : name = above
      · have hup := hinside.of_meets fun _ => .up habove
        rw [← Spot.place_up files hs] at hup
        obtain ⟨met, found, hleads⟩ := ih hs.up hrest hup hn
        exact ⟨met, found, .up habove hleads⟩
      have hplace := Spot.place_down files s habove
      rcases htarget : files.targetAt? (s.down name) with _ | target
      · have hat : (files.at? (s.place files ++ [name])).bind Node.target? = none := by
          rwa [targetAt?, hplace] at htarget
        have hdown := hinside.of_meets fun _ => .down hidle habove hat
        rw [← hplace] at hdown
        obtain ⟨met, found, hleads⟩ := ih (hs.down ⟨hname, hidle⟩ fun _ => habove) hrest hdown hn
        exact ⟨met, found, .down hidle habove htarget hleads⟩
      · have hat := exists_of_targetAt? htarget
        rw [hplace] at hat
        have hpieces : ∀ piece ∈ target.split slash, slash ∉ piece := Text.not_mem_of_mem_split
        have htargetInside := hinside.inside hcycle ⟨hname, hidle⟩ habove hat
        -- The link has a place of its own, so there is one less to come.
        have hlength : links.length + 1 ≤ files.root.linkPlaces.length :=
          htargetInside.length_le
        rw [← Spot.place_base] at htargetInside
        obtain ⟨met, mid, hleads⟩ := ihn (n - 1) (by omega) (hs.base target) hpieces htargetInside
          (by rw [List.length_cons]; omega)
        have hbehind : files.StandsInside links (mid.place files) rest := by
          refine hinside.of_meets fun link hlink => .through hidle habove hat ?_
          rw [← Spot.place_base]
          exact hlink.behind hleads (hs.base target) hpieces
        obtain ⟨met', found, hafter⟩ :=
          ih (hleads.isSpelled (hs.base target) hpieces) hrest hbehind hn
        exact ⟨_, found, .link hidle habove htarget hleads hafter⟩

/-- Where no link leads back to itself, every walk ends. -/
theorem HasNoCycle.exists_leads (hcycle : files.HasNoCycle) {s : Spot} (hs : s.IsSpelled)
    {names : List Text} (hnames : ∀ name ∈ names, slash ∉ name) :
    ∃ met found, files.Leads s names met found :=
  hcycle.exists_leads_of_inside files.root.linkPlaces.length hs hnames
    ⟨List.nodup_nil, by simp, by simp⟩ (by simp)

theorem HasNoCycle.walkEnds (hcycle : files.HasNoCycle) {p : Path}
    (hp : ∀ part ∈ p.parts, IsName part) : files.WalkEnds p :=
  hcycle.exists_leads (isSpelled_start p) fun part hpart => (hp part hpart).1

end Files

end SearchConfig
