import SearchConfig.Proofs.Filled
import SearchConfig.Proofs.RemoteSpellings

/-!
# What is filled is a gap

Filling changes nothing but gaps: a poll interval of zero, an empty version control system, and
templates that are left out or empty. Only where the whole pattern is left out the remote decides
which templates come in (`Repository.fillsGaps_normalized`). Filling only some of the gaps leads
nowhere else: it is a step to the same filled repository, and changes nothing that is filled already
(`Repository.Nears`).
-/

namespace SearchConfig

namespace Defaults

theorem orText_orText (default t : Text) :
    orText default (orText default t) = orText default t := by
  by_cases h : default = []
  · rw [h]
    unfold orText
    split_ifs <;> rfl
  · exact orText_of_ne_nil (orText_ne_nil h t) default

theorem orNumber_orNumber (default n : Int) :
    orNumber default (orNumber default n) = orNumber default n := by
  unfold orNumber
  split_ifs <;> rfl

end Defaults

namespace UrlPattern

/-- Is a pattern another one with some of its empty templates filled? -/
structure Nears (p p' : UrlPattern) : Prop where
  completed_eq : p'.completed = p.completed
  isFilled : p.IsFilled → p'.IsFilled

theorem nears_baseUrl (p : UrlPattern) :
    p.Nears { p with baseUrl := Defaults.orText Defaults.pattern.baseUrl p.baseUrl } where
  completed_eq := by simp only [completed, Defaults.orText_orText]
  isFilled h := ⟨Defaults.orText_ne_nil (by decide) _, h.2⟩

theorem nears_anchor (p : UrlPattern) :
    p.Nears { p with anchor := Defaults.orText Defaults.pattern.anchor p.anchor } where
  completed_eq := by simp only [completed, Defaults.orText_orText]
  isFilled h := ⟨h.1, Defaults.orText_ne_nil (by decide) _⟩

end UrlPattern

namespace Repository

/-- Is a template of a repository left out or empty? -/
def Lacks (r : Repository) (part : UrlPattern → Text) : Prop :=
  ∀ p, r.urlPattern = some p → part p = []

/-- Has a repository on Azure DevOps no pattern at all? -/
def IsBareAzure (r : Repository) : Prop :=
  r.urlPattern = none ∧ Defaults.azureMarker <:+: r.url

/-- Is a repository another one with all of its gaps filled and nothing else changed? -/
structure FillsGaps (r r' : Repository) : Prop where
  url : r'.url = r.url
  vcsConfig : r'.vcsConfig = r.vcsConfig
  excludeDotFiles : r'.excludeDotFiles = r.excludeDotFiles
  enablePollUpdates : r'.enablePollUpdates = r.enablePollUpdates
  enablePushUpdates : r'.enablePushUpdates = r.enablePushUpdates
  msBetweenPoll : r.msBetweenPoll ≠ 0 → r'.msBetweenPoll = r.msBetweenPoll
  msBetweenPoll_gap : r.msBetweenPoll = 0 → r'.msBetweenPoll = Defaults.msBetweenPoll
  vcs : r.vcs ≠ [] → r'.vcs = r.vcs
  vcs_gap : r.vcs = [] → r'.vcs = Defaults.vcs
  urlPattern : ∃ p', r'.urlPattern = some p' ∧ ∀ part ∈ [UrlPattern.baseUrl, UrlPattern.anchor],
    (∀ p, r.urlPattern = some p → part p ≠ [] → part p' = part p)
      ∧ (r.Lacks part → (part p' = part Defaults.azurePattern ↔ r.IsBareAzure)
        ∧ (part p' = part Defaults.pattern ↔ ¬ r.IsBareAzure))

section Gaps

variable {r : Repository} {part : UrlPattern → Text}
  (hpart : part ∈ [UrlPattern.baseUrl, UrlPattern.anchor])
include hpart

theorem template_of_gap {t : Text} (hazure : r.IsBareAzure → t = part Defaults.azurePattern)
    (hother : ¬ r.IsBareAzure → t = part Defaults.pattern) :
    (t = part Defaults.azurePattern ↔ r.IsBareAzure)
      ∧ (t = part Defaults.pattern ↔ ¬ r.IsBareAzure) := by
  have hne : part Defaults.azurePattern ≠ part Defaults.pattern := by
    rcases List.mem_pair.1 hpart with rfl | rfl <;> decide
  by_cases h : r.IsBareAzure
  · rw [hazure h]
    exact ⟨iff_of_true rfl h, iff_of_false hne (not_not_intro h)⟩
  · rw [hother h]
    exact ⟨iff_of_false hne.symm h, iff_of_true rfl h⟩

theorem template_patternFor (h : r.urlPattern = none) :
    (part (Defaults.patternFor r.url) = part Defaults.azurePattern ↔ r.IsBareAzure)
      ∧ (part (Defaults.patternFor r.url) = part Defaults.pattern ↔ ¬ r.IsBareAzure) := by
  refine template_of_gap hpart (fun hazure => ?_) fun hother => ?_
  · rw [Defaults.patternFor, if_pos (Text.occursIn_iff.2 hazure.2)]
  · rw [Defaults.patternFor, if_neg]
    exact fun hoccurs => hother ⟨h, Text.occursIn_iff.1 hoccurs⟩

theorem template_completed (p : UrlPattern) :
    part p.completed = Defaults.orText (part Defaults.pattern) (part p) := by
  rcases List.mem_pair.1 hpart with rfl | rfl <;> rfl

end Gaps

theorem fillsGaps_normalized (r : Repository) : r.FillsGaps r.normalized where
  url := rfl
  vcsConfig := rfl
  excludeDotFiles := rfl
  enablePollUpdates := rfl
  enablePushUpdates := rfl
  msBetweenPoll h := Defaults.orNumber_of_ne_zero h _
  msBetweenPoll_gap h := if_pos h
  vcs h := Defaults.orText_of_ne_nil h _
  vcs_gap h := if_pos (List.isEmpty_iff.2 h)
  urlPattern := by
    refine ⟨_, rfl, fun part hpart => ?_⟩
    rcases hp : r.urlPattern with _ | p
    · exact ⟨fun q hq => absurd hq.symm (Option.some_ne_none q),
        fun _ => template_patternFor hpart hp⟩
    · simp only [template_completed hpart]
      refine ⟨fun q hq hgiven => ?_, fun hlacks => template_of_gap hpart (fun h => ?_) fun _ => ?_⟩
      · obtain rfl := Option.some.inj hq
        exact Defaults.orText_of_ne_nil hgiven _
      · exact absurd (hp.symm.trans h.1) (Option.some_ne_none p)
      · exact if_pos (List.isEmpty_iff.2 (hlacks p hp))

theorem normalized_normalized (r : Repository) : r.normalized.normalized = r.normalized :=
  normalized_of_isFilled r.isFilled_normalized

/-- Is a repository another one with some of its gaps filled? -/
structure Nears (r r' : Repository) : Prop where
  normalized_eq : r'.normalized = r.normalized
  isFilled : r.IsFilled → r'.IsFilled

namespace Nears

variable {r r' r'' : Repository}

theorem refl (r : Repository) : r.Nears r := ⟨rfl, id⟩

theorem trans (h : r.Nears r') (h' : r'.Nears r'') : r.Nears r'' :=
  ⟨h'.normalized_eq.trans h.normalized_eq, h'.isFilled ∘ h.isFilled⟩

/-- What has no gaps is as near as it can be. -/
theorem eq_normalized (h : r.Nears r') (hfilled : r'.IsFilled) : r' = r.normalized :=
  (normalized_of_isFilled hfilled).symm.trans h.normalized_eq

end Nears

variable {r : Repository}

theorem nears_msBetweenPoll (r : Repository) : r.Nears
    { r with msBetweenPoll := Defaults.orNumber Defaults.msBetweenPoll r.msBetweenPoll } where
  normalized_eq := by
    simp only [normalized, withScalarDefaults, RepositoryOf.withPattern, Defaults.orNumber_orNumber]
  isFilled h := ⟨Defaults.orNumber_ne_zero (by decide) _, h.vcs, h.urlPattern⟩

theorem nears_vcs (r : Repository) :
    r.Nears { r with vcs := Defaults.orText Defaults.vcs r.vcs } where
  normalized_eq := by
    simp only [normalized, withScalarDefaults, RepositoryOf.withPattern, Defaults.orText_orText]
  isFilled h := ⟨h.msBetweenPoll, Defaults.orText_ne_nil (by decide) _, h.urlPattern⟩

theorem nears_patternFor (h : r.urlPattern = none) :
    r.Nears { r with urlPattern := some (Defaults.patternFor r.url) } where
  normalized_eq := by
    simp only [normalized, withScalarDefaults, RepositoryOf.withPattern, h,
      UrlPattern.completed_of_isFilled (Defaults.isFilled_patternFor r.url)]
  isFilled hfilled := by
    obtain ⟨p, hp, -⟩ := hfilled.urlPattern
    exact absurd (h.symm.trans hp).symm (Option.some_ne_none p)

theorem nears_of_urlPattern {p p' : UrlPattern} (h : r.urlPattern = some p) (hp : p.Nears p') :
    r.Nears { r with urlPattern := some p' } where
  normalized_eq := by
    simp only [normalized, withScalarDefaults, RepositoryOf.withPattern, h, hp.completed_eq]
  isFilled hfilled := by
    obtain ⟨q, hq, hqfilled⟩ := hfilled.urlPattern
    obtain rfl := Option.some.inj (h.symm.trans hq)
    exact ⟨hfilled.msBetweenPoll, hfilled.vcs, p', rfl, hp.isFilled hqfilled⟩

end Repository

end SearchConfig
