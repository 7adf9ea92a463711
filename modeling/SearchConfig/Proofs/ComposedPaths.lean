import SearchConfig.Proofs.LinkCycles

/-!
# Paths that are resolved in two steps

Where no link leads back to itself, a relative database path has a place, and it may be looked for in
two steps: what follows a slash is taken from the place of what stands in front of it
(`Config.resolveDbPath_composes`). For the walk goes on from the end of the walk along the path in
front, and the walk from the place found there leads to the same place, though by other spots, and
meets links equally deep. None of it holds of a walk that overlooks a link or goes deeper than links
are followed.
-/

namespace SearchConfig

open SearchConfig.Path

theorem Text.split_append_cons (separator : CodePoint) (s t : Text) :
    split separator (s ++ separator :: t) = split separator s ++ split separator t := by
  have hseparator : ∀ u : Text, split separator (separator :: u) = [] :: split separator u :=
    split_append List.not_mem_nil
  induction s with
  | nil => exact hseparator t
  | cons c s ih =>
    by_cases hc : c = separator
    · rw [hc, List.cons_append, hseparator, hseparator, ih, List.cons_append]
    · obtain ⟨piece, pieces, hsplit⟩ := List.exists_cons_of_ne_nil (split_ne_nil separator s)
      rw [hsplit] at ih
      rw [List.cons_append, split_cons hc ih, split_cons hc hsplit]
      rfl

namespace Path

theorem isAbsolute_eq_false_iff (t : Text) :
    (ofText t).isAbsolute = false ↔ t.head? ≠ some slash := by
  rw [← Bool.not_eq_true, isAbsolute_ofText]

/-- The path of two texts with a slash in between. -/
theorem ofText_append {a : Text} (ha : a ≠ []) (hrelative : (ofText a).isAbsolute = false)
    (b : Text) :
    (ofText (a ++ slash :: b)).isAbsolute = false
      ∧ (ofText (a ++ slash :: b)).parts = (ofText a).parts ++ (ofText b).parts := by
  constructor
  · rw [isAbsolute_eq_false_iff] at hrelative ⊢
    rwa [List.head?_append_of_ne_nil a ha]
  · simp only [ofText, Text.split_append_cons, List.filter_append]

theorem append_of_relative {q : Path} (h : q.isAbsolute = false) (p : Path) :
    p.append q = { p with parts := p.parts ++ q.parts } := by
  rw [append, if_neg (by simp [h])]

end Path

namespace Files

variable {files : Files}

/-- Where no link leads back to itself, the canonical form of a path is that of what follows some of
its parts, as seen from the canonical form of those. -/
theorem HasNoCycle.canonical_append (hcycle : files.HasNoCycle) (hfiles : files.IsWalkable)
    (hcurrent : files.IsPhysical files.workingDirectory) {anchor : Anchor} {parts rest : List Text}
    (hparts : ∀ part ∈ parts, IsName part ∧ part.IsUsable)
    (hrest : ∀ part ∈ rest, IsName part ∧ part.IsUsable)
    (hseen : ¬ files.OverlooksLink ⟨anchor, parts ++ rest⟩)
    (hdepth : ¬ files.ExceedsDepth ⟨anchor, parts ++ rest⟩) :
    ∃ dir place, files.canonical ⟨anchor, parts⟩ = .ok (toText ⟨.root, dir⟩) ∧ files.IsPlace dir
      ∧ files.canonical ⟨anchor, parts ++ rest⟩ = .ok place
      ∧ (¬ files.OverlooksLink ⟨.root, dir ++ rest⟩ →
        files.canonical ⟨.root, dir ++ rest⟩ = .ok place) := by
  have hall : ∀ part ∈ parts ++ rest, IsName part ∧ part.IsUsable :=
    List.forall_mem_append.2 ⟨hparts, hrest⟩
  have hslash : ∀ part ∈ rest, slash ∉ part := fun part hpart => (hrest part hpart).1.1
  obtain ⟨met, found, hleads⟩ := hcycle.walkEnds (p := ⟨anchor, parts ++ rest⟩)
    fun part hpart => (hall part hpart).1
  have hmet := isFollowed_of_leads hseen hdepth hleads
  obtain ⟨before, mid, after, rfl, hbefore, hafter⟩ := Leads.append_iff.1 hleads
  obtain ⟨hdir, hplace⟩ := canonical_isPlace (p := ⟨anchor, parts⟩) hfiles hcurrent
    (fun part hpart => (hparts part hpart).1) (fun part hpart => (hparts part hpart).2) hbefore
    fun link hlink => hmet link (List.mem_append_left _ hlink)
  obtain ⟨hwhole, -⟩ := canonical_isPlace (p := ⟨anchor, parts ++ rest⟩) hfiles hcurrent
    (fun part hpart => (hall part hpart).1) (fun part hpart => (hall part hpart).2) hleads hmet
  refine ⟨mid.place files, _, hdir, hplace, hwhole, fun hseen' => ?_⟩
  -- The second walk stands at another spot, but at the place that the first has come to.
  have hmid : mid.IsSpelled := hbefore.isSpelled (isSpelled_start _) fun part hpart =>
    (hparts part hpart).1.1
  have hspot : Spot.IsSpelled ⟨true, mid.place files⟩ :=
    ⟨fun part hpart => (hplace.names part hpart).1, fun _ hmem => (hplace.names _ hmem).2 rfl⟩
  obtain ⟨met', found', hleads'⟩ := hcycle.exists_leads hspot hslash
  obtain ⟨hdepths, hfound⟩ := hafter.unique_place hleads' hmid hspot hslash rfl
  have hagain : files.Leads (start ⟨.root, mid.place files ++ rest⟩) (mid.place files ++ rest) met'
      found' := Leads.append_iff.2 ⟨[], _, met', rfl, hplace.leads, hleads'⟩
  have hall' : ∀ part ∈ mid.place files ++ rest, IsName part ∧ part.IsUsable :=
    List.forall_mem_append.2
      ⟨fun part hpart => ⟨(hplace.names part hpart).1, hplace.usable part hpart⟩, hrest⟩
  have hshallow : ∀ depth ∈ met'.map Meeting.depth, depth < files.linkDepth := by
    rw [hdepths, List.forall_mem_map]
    exact fun link hlink => (hmet link (List.mem_append_right _ hlink)).shallow
  have hdepth' : ¬ files.ExceedsDepth ⟨.root, mid.place files ++ rest⟩ := by
    rw [hagain.exceedsDepth_iff]
    rintro ⟨link, hlink, hdeep⟩
    exact absurd (hshallow _ (List.mem_map_of_mem hlink)) (Nat.not_lt.2 hdeep)
  rw [← hfound]
  exact (canonical_isPlace (p := ⟨.root, mid.place files ++ rest⟩) hfiles hcurrent
    (fun part hpart => (hall' part hpart).1) (fun part hpart => (hall' part hpart).2) hagain
    (isFollowed_of_leads hseen' hdepth' hagain)).1

end Files

open Files

namespace Config

theorem isUsable_of_mem_ofText {t : Text} (h : t.IsUsable) :
    ∀ part ∈ (Path.ofText t).parts, IsName part ∧ part.IsUsable := fun part hpart =>
  ⟨isName_of_mem_ofText hpart, (isUsable_iff_split t).1 h part (List.mem_filter.1 hpart).1⟩

/-- Where no link leads back to itself, a relative database path has a place, and what follows a slash
in it may be taken from the place of what stands in front, unless a link is overlooked or stands
deeper in links than they are followed. -/
theorem resolveDbPath_composes {files : Files} (hfiles : files.IsWalkable)
    (hcurrent : files.IsPhysical files.workingDirectory) (hcycle : files.HasNoCycle) {name a b : Text}
    (hname : ∀ part ∈ (Path.ofText name).parent.parts, part.IsUsable) (husableFront : a.IsUsable)
    (husable : b.IsUsable) (hne : a ≠ []) (ha : (Path.ofText a).isAbsolute = false)
    (hb : (Path.ofText b).isAbsolute = false)
    (hseen : ¬ files.OverlooksLink ((Path.ofText name).parent.append (.ofText (a ++ slash :: b))))
    (hdepth : ¬ files.ExceedsDepth ((Path.ofText name).parent.append (.ofText (a ++ slash :: b)))) :
    ∃ front place, resolveDbPath files a (.ofText name) = .ok front
      ∧ resolveDbPath files (a ++ slash :: b) (.ofText name) = .ok place
      ∧ (¬ files.OverlooksLink (((Path.ofText front).append (.ofText "config.json")).parent.append
          (.ofText b)) →
        resolveDbPath files b ((Path.ofText front).append (.ofText "config.json")) = .ok place) := by
  obtain ⟨hwhole, hsplit⟩ := ofText_append hne ha b
  have hparent : ∀ part ∈ (Path.ofText name).parent.parts, IsName part ∧ part.IsUsable :=
    fun part hpart => ⟨isName_of_mem_parent part hpart, hname part hpart⟩
  rw [append_of_relative hwhole, hsplit, ← List.append_assoc] at hseen hdepth
  obtain ⟨dir, place, hdir, hplace, hcanonical, hagain⟩ := hcycle.canonical_append hfiles hcurrent
    (List.forall_mem_append.2 ⟨hparent, isUsable_of_mem_ofText husableFront⟩)
    (isUsable_of_mem_ofText husable) hseen hdepth
  have hconfig : ((Path.ofText (Path.toText ⟨.root, dir⟩)).append (.ofText "config.json")).parent
      = ⟨.root, dir⟩ := by
    rw [hplace.ofText]
    exact congrArg (Path.mk .root) (List.dropLast_concat ..)
  refine ⟨Path.toText ⟨.root, dir⟩, place, ?_, ?_, fun hseen' => ?_⟩
  · rw [resolveDbPath_ok_iff _ ha, append_of_relative ha]
    exact hdir
  · rw [resolveDbPath_ok_iff _ hwhole, append_of_relative hwhole, hsplit, ← List.append_assoc]
    exact hcanonical
  · rw [hconfig, append_of_relative hb] at hseen'
    rw [resolveDbPath_ok_iff _ hb, hconfig, append_of_relative hb]
    exact hagain hseen'

/-- A link that is met twice on the way. -/
theorem resolveDbPath_composes_twice :
    let files : Files := ⟨[("l", .link "d"), ("d", .directory [])], [], 0⟩
    files.IsWalkable ∧ files.IsPhysical files.workingDirectory ∧ files.HasNoCycle
      ∧ ¬ files.OverlooksLink (.ofText "l/../l/x") ∧ ¬ files.ExceedsDepth (.ofText "l/../l/x")
      ∧ resolveDbPath files "l/.." (.ofText "config.json") = .ok "/"
      ∧ resolveDbPath files "l/../l/x" (.ofText "config.json") = .ok "/d/x"
      ∧ resolveDbPath files "l/x" (.ofText "/config.json") = .ok "/d/x" := by
  intro files
  have hlink : ∀ {place target}, files.at? place = some (.link target) →
      place = ["l"] ∧ target = "d" := by
    intro place target htarget
    have hmem := Node.mem_linkPlaces htarget
    obtain rfl := List.mem_singleton.1 hmem
    exact ⟨rfl, (Node.link.inj (Option.some.inj htarget)).symm⟩
  have hwalkable : files.IsWalkable :=
    isWalkable_of_linkPlaces (by decide) (List.forall_mem_nil _)
  have hcurrent : files.IsPhysical files.workingDirectory := isPhysical_nil files
  have hcycle : files.HasNoCycle := by
    rintro link ⟨place, name, target, rfl, -, -, htarget, hmeets⟩
    obtain ⟨hplace, rfl⟩ := hlink htarget
    have hsplit : place ++ [name] = ([] : List Text) ++ [("l" : Text)] := hplace
    obtain ⟨rfl, hname⟩ := List.append_inj' hsplit rfl
    have hd : files.Meets [] ["d"] ([] ++ [name]) := hmeets
    generalize hl : ([] ++ [name] : List Text) = link at hd
    cases hd with
    | idle hidle _ => exact absurd hidle (by decide)
    | up habove _ => exact absurd habove (by decide)
    | down _ _ _ hrest => cases hrest
    | here _ _ htarget => cases htarget
    | through _ _ htarget _ => cases htarget
  have habove : ("l" : Text) ≠ above := by decide
  have hinside : files.Leads ⟨false, []⟩ [("d" : Text)] [] ⟨false, ["d"]⟩ :=
    .down rfl (by decide) rfl .arrived
  have hbehind : files.Leads ⟨false, ["d"]⟩ [("x" : Text)] [] ⟨false, ["d", "x"]⟩ :=
    .down rfl (by decide) rfl .arrived
  have hagain : files.Leads ⟨false, []⟩ ["l", "x"]
      (⟨Spot.down ⟨false, []⟩ "l", 0⟩ :: ([].map Meeting.inside ++ [])) ⟨false, ["d", "x"]⟩ :=
    .link rfl habove rfl hinside hbehind
  have hleads : files.Leads ⟨false, []⟩ ["l", "..", "l", "x"]
      (⟨Spot.down ⟨false, []⟩ "l", 0⟩ :: ([].map Meeting.inside
        ++ (⟨Spot.down ⟨false, []⟩ "l", 0⟩ :: ([].map Meeting.inside ++ [])))) ⟨false, ["d", "x"]⟩ :=
    .link rfl habove rfl hinside (.up rfl hagain)
  have hfront : resolveDbPath files "l/.." (.ofText "config.json") = .ok "/" :=
    (resolveDbPath_ok_iff _ rfl _).2 (by decide +kernel)
  have hplace : resolveDbPath files "l/../l/x" (.ofText "config.json") = .ok "/d/x" :=
    (resolveDbPath_ok_iff _ rfl _).2 (by decide +kernel)
  have hseen : ¬ files.OverlooksLink (.ofText "l/../l/x") := by
    rw [hleads.overlooksLink_iff]
    decide
  have hdepth : ¬ files.ExceedsDepth (.ofText "l/../l/x") := by
    rw [hleads.exceedsDepth_iff]
    decide
  have hrooted : files.Leads .root ["l", "x"]
      (⟨Spot.down .root "l", 0⟩ :: ([].map Meeting.inside ++ [])) ⟨true, ["d", "x"]⟩ :=
    .link rfl habove rfl (.down rfl (by decide) rfl .arrived) (.down rfl (by decide) rfl .arrived)
  have hseenAgain : ¬ files.OverlooksLink (.ofText "/l/x") := by
    rw [hrooted.overlooksLink_iff]
    decide
  have hname : ∀ part ∈ (Path.ofText "config.json").parent.parts, part.IsUsable := by decide
  have hl : ("l/.." : Text).IsUsable := by decide
  have hx : ("l/x" : Text).IsUsable := by decide
  obtain ⟨front, place, hfront', hplace', hcomposes⟩ :=
    resolveDbPath_composes hwalkable hcurrent hcycle hname hl hx (by decide) rfl rfl hseen hdepth
  obtain rfl : "/" = front := Except.ok.inj (hfront.symm.trans hfront')
  obtain rfl : "/d/x" = place := Except.ok.inj (hplace.symm.trans hplace')
  exact ⟨hwalkable, hcurrent, hcycle, hseen, hdepth, hfront, hplace, hcomposes hseenAgain⟩

end Config

/-- A link in the directory in which one works, whose path from the root has more bytes than the
system takes. -/
def Files.deepDirectory : Files :=
  let files : Files := ⟨[("real", .directory [])], List.replicate 15 longName, 0⟩
  files.plant (List.replicate 16 longName) (.link "/real")

/-- A link that is seen from the working directory is overlooked from the root. -/
theorem Config.resolveDbPath_deepDirectory :
    resolveDbPath .deepDirectory ("." ++ slash :: longName) (.ofText "config.json") = .ok "/real"
      ∧ ∃ front, resolveDbPath .deepDirectory "." (.ofText "config.json") = .ok front
        ∧ resolveDbPath .deepDirectory longName ((Path.ofText front).append (.ofText "config.json"))
          ≠ .ok "/real" := by
  refine ⟨(resolveDbPath_ok_iff _ (by decide) _).2 (by decide +kernel),
    Path.toText ⟨.root, List.replicate 15 longName⟩,
    (resolveDbPath_ok_iff _ rfl _).2 (by decide +kernel), ?_⟩
  rw [ne_eq, resolveDbPath_ok_iff _ (by decide)]
  decide +kernel

end SearchConfig
