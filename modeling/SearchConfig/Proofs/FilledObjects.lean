import SearchConfig.Proofs.FilledGaps
import SearchConfig.Proofs.PlainObjects

/-!
# Filling the repositories of a map in any order

A repository is filled in place, and its pattern may be the pattern of others as well. So filling
one repository may fill gaps of others, but only with what they are filled with anyway: every
repository of the workspace comes nearer to its own filled form (`Workspace.Progress`), and one that
is there stays there. Once each repository of a map was filled, in whatever order and however often,
the map holds the filled repositories (`fill_repositories`).
-/

namespace SearchConfig

/-- The members of a repository whose secret and pattern are objects. -/
def Repository.membersWith (r : Repository) (secret pattern : Option Handle) :
    List (Text × Value) :=
  RepositoryOf.members
    { r with vcsConfig := secret.map Value.live, urlPattern := pattern.map Value.live }

theorem Secret.members_injective : Function.Injective Secret.members := by
  rintro ⟨payload⟩ ⟨payload'⟩ heq
  simpa [members] using heq

theorem UrlPattern.members_injective : Function.Injective UrlPattern.members := by
  rintro ⟨baseUrl, anchor⟩ ⟨baseUrl', anchor'⟩ heq
  simpa [members] using heq

namespace Workspace

variable {w w' w'' : Workspace} {h k : Handle} {secret pattern : Option Handle} {r : Repository}
  {p p' : UrlPattern}

/-- Is a part, if there is one, held in an object? -/
def HasPart {α : Type} (w : Workspace) (kind : Kind) (members : α → List (Text × Value)) :
    Option Handle → Option α → Prop :=
  Option.Rel fun k a => w.Has k kind (members a)

/-- Is an object this repository, with these objects as its parts? -/
structure HasRepository (w : Workspace) (h : Handle) (secret pattern : Option Handle)
    (r : Repository) : Prop where
  object : w.Has h .repository (r.membersWith secret pattern)
  secret : w.HasPart .secret Secret.members secret r.vcsConfig
  pattern : w.HasPart .pattern UrlPattern.members pattern r.urlPattern

/-- Is an object this repository? -/
def IsRepository (w : Workspace) (h : Handle) (r : Repository) : Prop :=
  ∃ secret pattern, w.HasRepository h secret pattern r

/-- Has every repository of a workspace come nearer to what it is when it is filled? -/
def Progress (w w' : Workspace) : Prop :=
  ∀ h r, w.IsRepository h r → ∃ r', w'.IsRepository h r' ∧ r.Nears r'

namespace Progress

theorem refl (w : Workspace) : w.Progress w := fun _ r hr => ⟨r, hr, .refl r⟩

theorem trans (hw : w.Progress w') (hw' : w'.Progress w'') : w.Progress w'' := by
  intro h r hr
  obtain ⟨r', hr', hnear⟩ := hw h r hr
  obtain ⟨r'', hr'', hnear'⟩ := hw' h r' hr'
  exact ⟨r'', hr'', hnear.trans hnear'⟩

end Progress

section Parts

variable {α : Type} {kind : Kind} {members : α → List (Text × Value)} {part : Option Handle}
  {a a' : Option α}

theorem HasPart.imp (ha : w.HasPart kind members part a)
    (himp : ∀ k a, part = some k → w.Has k kind (members a) → w'.Has k kind (members a)) :
    w'.HasPart kind members part a := by
  cases ha with
  | none => exact .none
  | some hk => exact .some (himp _ _ rfl hk)

theorem HasPart.unique (hmembers : Function.Injective members)
    (ha : w.HasPart kind members part a) (ha' : w.HasPart kind members part a') : a = a' := by
  cases ha with
  | none =>
    cases ha' with
    | none => rfl
  | some hk =>
    cases ha' with
    | some hk' => rw [hmembers (hk.members_eq hk' rfl)]

end Parts

theorem getD_live_injective :
    Function.Injective fun part : Option Handle => (part.map Value.live).getD .null := by
  rintro (_ | k) (_ | k') heq
  · rfl
  · cases heq
  · cases heq
  · exact congrArg some (Value.live.inj heq)

theorem elim_bool_injective :
    Function.Injective fun flag : Option Bool => flag.elim Value.null .bool := by
  rintro (_ | b) (_ | b') heq
  · rfl
  · cases heq
  · cases heq
  · exact congrArg some (Value.bool.inj heq)

namespace HasRepository

theorem eq_of_members_eq {r r' : Repository} {secret secret' pattern pattern' : Option Handle}
    (heq : r.membersWith secret pattern = r'.membersWith secret' pattern') :
    secret = secret' ∧ pattern = pattern' ∧
      { r with vcsConfig := r'.vcsConfig, urlPattern := r'.urlPattern } = r' := by
  simp only [Repository.membersWith, RepositoryOf.members, List.cons.injEq, Prod.mk.injEq, true_and,
    and_true, Value.text.injEq, Value.int.injEq, Value.bool.injEq] at heq
  obtain ⟨hurl, hpoll, hvcs, hsecret, hpattern, hdots, henabled, hpushed⟩ := heq
  refine ⟨getD_live_injective hsecret, getD_live_injective hpattern, ?_⟩
  rw [hurl, hpoll, hvcs, hdots, elim_bool_injective henabled, elim_bool_injective hpushed]

theorem unique {r' : Repository} {secret' pattern' : Option Handle}
    (hr : w.HasRepository h secret pattern r) (hr' : w.HasRepository h secret' pattern' r') :
    r = r' := by
  obtain ⟨rfl, rfl, heq⟩ := eq_of_members_eq (hr.object.members_eq hr'.object rfl)
  have hsecret := hr.secret.unique Secret.members_injective hr'.secret
  have hpattern := hr.pattern.unique UrlPattern.members_injective hr'.pattern
  rw [← heq, ← hsecret, ← hpattern]

end HasRepository

theorem IsRepository.unique {r' : Repository} (hr : w.IsRepository h r)
    (hr' : w.IsRepository h r') : r = r' := by
  obtain ⟨_, _, hr⟩ := hr
  obtain ⟨_, _, hr'⟩ := hr'
  exact HasRepository.unique hr hr'

/-! ## Writing to the objects of repositories -/

namespace HasRepository

theorem write_self {secret' pattern' : Option Handle} (hr : w.HasRepository h secret pattern r)
    (r' : Repository) (hsecret : w.HasPart .secret Secret.members secret' r'.vcsConfig)
    (hpattern : w.HasPart .pattern UrlPattern.members pattern' r'.urlPattern) :
    (w.write h (r'.membersWith secret' pattern')).HasRepository h secret' pattern' r' where
  object := hr.object.write_self rfl
  secret := hsecret.imp fun _ _ _ hk => hk.write_other (hr.object.number_ne hk (by decide)) _
  pattern := hpattern.imp fun _ _ _ hk => hk.write_other (hr.object.number_ne hk (by decide)) _

theorem write_other {members : List (Text × Value)} (hr : w.HasRepository h secret pattern r)
    (hk : w.Has k .repository members) (hne : h.number ≠ k.number)
    (members' : List (Text × Value)) :
    (w.write k members').HasRepository h secret pattern r where
  object := hr.object.write_other hne _
  secret := hr.secret.imp fun _ _ _ hpart => hpart.write_other (hk.number_ne hpart (by decide)) _
  pattern := hr.pattern.imp fun _ _ _ hpart => hpart.write_other (hk.number_ne hpart (by decide)) _

/-- Writing to a pattern shows in each repository that it is the pattern of. -/
theorem write_pattern (hr : w.HasRepository h secret pattern r) (hk : w.Has k .pattern p.members)
    (p' : UrlPattern) : (w.write k p'.members).HasRepository h secret pattern
      { r with urlPattern := if pattern = some k then some p' else r.urlPattern } where
  object := hr.object.write_other (hk.number_ne hr.object (by decide)) _
  secret := hr.secret.imp fun _ _ _ hpart => hpart.write_other (hk.number_ne hpart (by decide)) _
  pattern := by
    by_cases hpattern : pattern = some k
    · rw [if_pos hpattern, hpattern]
      exact .some (hk.write_self rfl)
    · rw [if_neg hpattern]
      refine hr.pattern.imp fun j q hj hq => hq.write_other (fun hnumber => hpattern ?_) _
      rw [hj, hq.eq_of_number hk hnumber]

theorem withObject (hr : w.HasRepository h secret pattern r) (members : List (Text × Value)) :
    (w.withObject members).HasRepository h secret pattern r where
  object := hr.object.withObject_of_has _
  secret := hr.secret.imp fun _ _ _ hk => hk.withObject_of_has _
  pattern := hr.pattern.imp fun _ _ _ hk => hk.withObject_of_has _

end HasRepository

namespace Progress

theorem write {members : List (Text × Value)} {r' : Repository}
    (hr : w.HasRepository h secret pattern r) (hr' : (w.write h members).IsRepository h r')
    (hnear : r.Nears r') : w.Progress (w.write h members) := by
  rintro k q ⟨secret', pattern', hq⟩
  by_cases hnumber : k.number = h.number
  · obtain rfl := hq.object.eq_of_number hr.object hnumber
    obtain rfl := hr.unique hq
    exact ⟨r', hr', hnear⟩
  · exact ⟨q, ⟨_, _, hq.write_other hr.object hnumber _⟩, .refl q⟩

theorem write_pattern (hk : w.Has k .pattern p.members) (hnear : p.Nears p') :
    w.Progress (w.write k p'.members) := by
  rintro h r ⟨secret, pattern, hr⟩
  refine ⟨_, ⟨_, _, hr.write_pattern hk p'⟩, ?_⟩
  by_cases hpattern : pattern = some k
  · rw [if_pos hpattern]
    refine Repository.nears_of_urlPattern ?_ hnear
    exact (hr.pattern.unique UrlPattern.members_injective (hpattern ▸ .some hk))
  · rw [if_neg hpattern]
    exact .refl r

theorem withObject (w : Workspace) (members : List (Text × Value)) :
    w.Progress (w.withObject members) := by
  rintro h r ⟨secret, pattern, hr⟩
  exact ⟨r, ⟨_, _, hr.withObject members⟩, .refl r⟩

end Progress

/-! ## Filling one repository -/

namespace HasRepository

theorem gives_fillZero (hr : w.HasRepository h secret pattern r) :
    ∃ w', Gives (fillZero (.live h) RepositoryOf.msBetweenPollField Defaults.msBetweenPoll) w () w'
      ∧ w'.HasRepository h secret pattern
        { r with msBetweenPoll := Defaults.orNumber Defaults.msBetweenPoll r.msBetweenPoll }
      ∧ w.Progress w' := by
  have hfilled := hr.write_self
    { r with msBetweenPoll := Defaults.orNumber Defaults.msBetweenPoll r.msBetweenPoll }
    hr.secret hr.pattern
  exact ⟨_, hr.object.gives_fillZero rfl _ rfl, hfilled,
    .write hr ⟨_, _, hfilled⟩ (Repository.nears_msBetweenPoll r)⟩

theorem gives_fillEmpty (hr : w.HasRepository h secret pattern r) :
    ∃ w', Gives (fillEmpty (.live h) RepositoryOf.vcsField Defaults.vcs) w () w'
      ∧ w'.HasRepository h secret pattern { r with vcs := Defaults.orText Defaults.vcs r.vcs }
      ∧ w.Progress w' := by
  have hfilled := hr.write_self { r with vcs := Defaults.orText Defaults.vcs r.vcs }
    hr.secret hr.pattern
  exact ⟨_, hr.object.gives_fillEmpty rfl _ rfl, hfilled,
    .write hr ⟨_, _, hfilled⟩ (Repository.nears_vcs r)⟩

theorem gives_addPatternTo (hr : w.HasRepository h secret pattern r) (hnone : r.urlPattern = none) :
    ∃ w', Gives (addPatternTo (.live h)) w () w'
      ∧ w'.IsRepository h { r with urlPattern := some (Defaults.patternFor r.url) }
      ∧ w.Progress w' := by
  let p := Defaults.patternFor r.url
  let k : Handle := ⟨.pattern, w.objects.length⟩
  have hk : (w.withObject p.members).Has k .pattern p.members :=
    ⟨rfl, List.getElem?_concat_length, rfl⟩
  have hadded := hr.withObject p.members
  have hfilled := hadded.write_self { r with urlPattern := some p } hadded.secret (.some hk)
  refine ⟨_, ?_, ⟨_, _, hfilled⟩, (Progress.withObject w _).trans
    (.write hadded ⟨_, _, hfilled⟩ (Repository.nears_patternFor hnone))⟩
  refine gives_bind (hr.object.gives_readMember rfl (v := .text r.url) rfl) ?_
  refine gives_bind (gives_get w) (gives_bind (gives_used (w.holds_text _ _) w) ?_)
  exact gives_bind (a := k) rfl (hadded.object.gives_assignMember rfl (by decide) _)

theorem gives_complete (hr : w.HasRepository h secret (some k) r) (hp : r.urlPattern = some p) :
    ∃ w', Gives (do
        fillEmpty (.live k) UrlPattern.baseUrlField Defaults.pattern.baseUrl
        fillEmpty (.live k) UrlPattern.anchorField Defaults.pattern.anchor) w () w'
      ∧ w'.IsRepository h { r with urlPattern := some p.completed } ∧ w.Progress w' := by
  let p' := { p with baseUrl := Defaults.orText Defaults.pattern.baseUrl p.baseUrl }
  have hk : w.Has k .pattern p.members := by
    cases hp ▸ hr.pattern with
    | some hk => exact hk
  have hk' : (w.write k p'.members).Has k .pattern p'.members := hk.write_self rfl
  have hfilled := (hr.write_pattern hk p').write_pattern hk' p.completed
  simp only [if_pos] at hfilled
  refine ⟨_, gives_bind (hk.gives_fillEmpty rfl _ rfl) (hk'.gives_fillEmpty rfl _ rfl),
    ⟨_, _, hfilled⟩, ?_⟩
  exact (Progress.write_pattern hk p.nears_baseUrl).trans (.write_pattern hk' p'.nears_anchor)

theorem gives_fillPattern (hr : w.HasRepository h secret pattern r) :
    ∃ w', Gives (do
        match ← readMember (.live h) RepositoryOf.urlPatternField.inner with
        | .null => addPatternTo (.live h)
        | pattern =>
          fillEmpty pattern UrlPattern.baseUrlField Defaults.pattern.baseUrl
          fillEmpty pattern UrlPattern.anchorField Defaults.pattern.anchor) w () w'
      ∧ w'.IsRepository h (r.withPattern <| some <| match r.urlPattern with
        | none => Defaults.patternFor r.url
        | some pattern => pattern.completed)
      ∧ w.Progress w' := by
  have hread : Gives (readMember (.live h) RepositoryOf.urlPatternField.inner) w
      ((pattern.map Value.live).getD .null) w := hr.object.gives_readMember rfl rfl
  have hpart := hr.pattern
  generalize hp : r.urlPattern = part at hpart ⊢
  cases hpart with
  | none =>
    obtain ⟨w', hgives, hfilled⟩ := hr.gives_addPatternTo hp
    exact ⟨w', gives_bind hread hgives, hfilled⟩
  | some hk =>
    obtain ⟨w', hgives, hfilled⟩ := hr.gives_complete hp
    exact ⟨w', gives_bind hread hgives, hfilled⟩

end HasRepository

/-- Filling a repository fills it, and brings the others nearer to what they are when filled. -/
theorem gives_normalizeRepository (hr : w.IsRepository h r) :
    ∃ w', Gives (normalizeRepository (.live h)) w () w' ∧ w'.IsRepository h r.normalized
      ∧ w.Progress w' := by
  obtain ⟨secret, pattern, hr⟩ := hr
  obtain ⟨w₁, hpoll, hr₁, hprogress₁⟩ := hr.gives_fillZero
  obtain ⟨w₂, hvcs, hr₂, hprogress₂⟩ := hr₁.gives_fillEmpty
  obtain ⟨w₃, hpattern, hr₃, hprogress₃⟩ := hr₂.gives_fillPattern
  exact ⟨w₃, gives_bind hpoll (gives_bind hvcs hpattern), hr₃,
    hprogress₁.trans (hprogress₂.trans hprogress₃)⟩

/-! ## Filling them all -/

/-- Fills the gaps of one repository after the other. -/
def normalizeEach (schedule : List Handle) : Action Unit :=
  schedule.forM fun h => normalizeRepository (.live h)

theorem gives_normalizeEach : ∀ (schedule : List Handle) {w : Workspace},
    (∀ h ∈ schedule, ∃ r, w.IsRepository h r) →
    ∃ w', Gives (normalizeEach schedule) w () w' ∧ w.Progress w'
      ∧ ∀ h ∈ schedule, ∀ r, w.IsRepository h r → w'.IsRepository h r.normalized
  | [], w, _ => ⟨w, gives_pure () w, .refl w, fun _ hmem => absurd hmem List.not_mem_nil⟩
  | h :: schedule, w, hrepos => by
    obtain ⟨r, hr⟩ := hrepos h List.mem_cons_self
    obtain ⟨w₁, hfirst, hr₁, hprogress₁⟩ := gives_normalizeRepository hr
    have hrepos₁ : ∀ k ∈ schedule, ∃ q, w₁.IsRepository k q := by
      intro k hk
      obtain ⟨q, hq⟩ := hrepos k (List.mem_cons_of_mem h hk)
      obtain ⟨q', hq', -⟩ := hprogress₁ k q hq
      exact ⟨q', hq'⟩
    obtain ⟨w₂, hrest, hprogress₂, hfilled⟩ := gives_normalizeEach schedule hrepos₁
    refine ⟨w₂, gives_bind hfirst hrest, hprogress₁.trans hprogress₂, fun k hk q hq => ?_⟩
    rcases List.mem_cons.1 hk with rfl | hk
    · -- What is filled already is still what it was.
      obtain rfl := hr.unique hq
      obtain ⟨r', hr', hnear⟩ := hprogress₂ k _ hr₁
      have heq := hnear.eq_normalized (hnear.isFilled r.isFilled_normalized)
      rwa [heq, Repository.normalized_normalized] at hr'
    · obtain ⟨q', hq', hnear⟩ := hprogress₁ k q hq
      rw [← hnear.normalized_eq]
      exact hfilled k hk q' hq'

/-- Are the objects of a map these repositories? -/
def IsMap (w : Workspace) (repos : List (Text × Handle)) (values : List (Text × Repository)) :
    Prop :=
  List.Forall₂ (fun entry value => entry.1 = value.1 ∧ w.IsRepository entry.2 value.2) repos values

namespace IsMap

variable {repos : List (Text × Handle)} {values : List (Text × Repository)}

theorem exists_isRepository (hmap : w.IsMap repos values) (hmem : h ∈ repos.map Prod.snd) :
    ∃ r, w.IsRepository h r := by
  induction hmap with
  | nil => exact absurd hmem List.not_mem_nil
  | cons hentry _ ih =>
    rcases List.mem_cons.1 hmem with rfl | hmem
    · exact ⟨_, hentry.2⟩
    · exact ih hmem

theorem mapValues (hmap : w.IsMap repos values) {f : Repository → Repository}
    (himp : ∀ h ∈ repos.map Prod.snd, ∀ r, w.IsRepository h r → w'.IsRepository h (f r)) :
    w'.IsMap repos (Entries.mapValues f values) := by
  induction hmap with
  | nil => exact .nil
  | cons hentry _ ih =>
    exact .cons ⟨hentry.1, himp _ List.mem_cons_self _ hentry.2⟩
      (ih fun h hmem => himp h (List.mem_cons_of_mem _ hmem))

end IsMap

/-- Filling changes nothing but gaps, and nothing at all the second time. So the repositories of a
map, filled in place in any order and any number of times, be their patterns shared or not, end up
as what each of them is when it is filled on its own. -/
theorem fill_repositories :
    (∀ r : Repository, r.FillsGaps r.normalized ∧ r.normalized.normalized = r.normalized)
    ∧ (∀ (w : Workspace) (h : Handle) (r : Repository), w.IsRepository h r →
      ∃ w', Gives (normalizeRepository (.live h)) w () w' ∧ w'.IsRepository h r.normalized)
    ∧ ∀ (w : Workspace) (repos : List (Text × Handle)) (values : List (Text × Repository)),
      w.IsMap repos values → ∀ schedule : List Handle,
        (∀ h, h ∈ schedule ↔ h ∈ repos.map Prod.snd) →
        ∃ w', Gives (normalizeEach schedule) w () w'
          ∧ w'.IsMap repos (Entries.mapValues Repository.normalized values) := by
  refine ⟨fun r => ⟨r.fillsGaps_normalized, r.normalized_normalized⟩, fun w h r hr => ?_,
    fun w repos values hmap schedule hschedule => ?_⟩
  · obtain ⟨w', hgives, hfilled, -⟩ := gives_normalizeRepository hr
    exact ⟨w', hgives, hfilled⟩
  · obtain ⟨w', hgives, -, hfilled⟩ := gives_normalizeEach schedule (w := w) fun h hmem =>
      hmap.exists_isRepository ((hschedule h).1 hmem)
    exact ⟨w', hgives, hmap.mapValues fun h hmem => hfilled h ((hschedule h).2 hmem)⟩

/-- Three repositories: two have an empty pattern in common, and one is on Azure DevOps without a
pattern. -/
def withCommonPattern : Workspace where
  objects := [
    .ofEntries (Value.underNames (UrlPattern.members ⟨[], []⟩)),
    .ofEntries (Value.underNames (Repository.membersWith
      ⟨"u", 0, [], none, some ⟨[], []⟩, false, none, none⟩ none (some ⟨.pattern, 0⟩))),
    .ofEntries (Value.underNames (Repository.membersWith
      ⟨"visualstudio.com", 9, "hg", none, some ⟨[], []⟩, true, none, some true⟩ none
      (some ⟨.pattern, 0⟩))),
    .ofEntries (Value.underNames (Repository.membersWith
      ⟨"visualstudio.com", 0, [], none, none, false, none, none⟩ none none))]
  names := []
  marks := 0

theorem fill_repositories_common :
    withCommonPattern.IsMap
      [("a", ⟨.repository, 1⟩), ("b", ⟨.repository, 2⟩), ("c", ⟨.repository, 3⟩)]
      [("a", ⟨"u", 0, [], none, some ⟨[], []⟩, false, none, none⟩),
        ("b", ⟨"visualstudio.com", 9, "hg", none, some ⟨[], []⟩, true, none, some true⟩),
        ("c", ⟨"visualstudio.com", 0, [], none, none, false, none, none⟩)]
    ∧ ∃ w', Gives (normalizeEach
        [⟨.repository, 3⟩, ⟨.repository, 2⟩, ⟨.repository, 1⟩, ⟨.repository, 2⟩])
        withCommonPattern () w'
      ∧ w'.IsMap [("a", ⟨.repository, 1⟩), ("b", ⟨.repository, 2⟩), ("c", ⟨.repository, 3⟩)]
        [("a", ⟨"u", 30000, "git", none, some Defaults.pattern, false, none, none⟩),
          ("b", ⟨"visualstudio.com", 9, "hg", none, some Defaults.pattern, true, none, some true⟩),
          ("c", ⟨"visualstudio.com", 30000, "git", none, some Defaults.azurePattern, false, none,
            none⟩)] := by
  have hmap : withCommonPattern.IsMap
      [("a", ⟨.repository, 1⟩), ("b", ⟨.repository, 2⟩), ("c", ⟨.repository, 3⟩)]
      [("a", ⟨"u", 0, [], none, some ⟨[], []⟩, false, none, none⟩),
        ("b", ⟨"visualstudio.com", 9, "hg", none, some ⟨[], []⟩, true, none, some true⟩),
        ("c", ⟨"visualstudio.com", 0, [], none, none, false, none, none⟩)] :=
    .cons ⟨rfl, _, _, ⟨rfl, rfl, rfl⟩, .none, .some ⟨rfl, rfl, rfl⟩⟩
      (.cons ⟨rfl, _, _, ⟨rfl, rfl, rfl⟩, .none, .some ⟨rfl, rfl, rfl⟩⟩
      (.cons ⟨rfl, _, _, ⟨rfl, rfl, rfl⟩, .none, .none⟩ .nil))
  exact ⟨hmap, fill_repositories.2.2 withCommonPattern _ _ hmap _ fun h => by
    simp only [List.map_cons, List.map_nil, List.mem_cons, List.not_mem_nil]
    tauto⟩

end Workspace

end SearchConfig
