import SearchConfig.Proofs.PathFaults
import SearchConfig.Proofs.SpelledWalks

/-!
# Links that are known or being resolved

The search for a canonical form keeps where links are known to lead, and takes a link that it meets
while resolving it for one without end. In a walk that leads somewhere this never happens: behind a
link that is being resolved fewer links are met than with it, whatever spelling it is met in
(`Memo.IsOpen`). So a walk that leads somewhere is found, unless it meets a link at a spot that is
spelled too long for the system, or deeper than links are followed (`resolveNames_of_leads`).
-/

namespace SearchConfig

open SearchConfig.Path

namespace Files

variable {files : Files}

theorem exists_of_targetAt? {s : Spot} {target : Text} (h : files.targetAt? s = some target) :
    files.at? (s.place files) = some (.link target) := by
  obtain ⟨node, hnode, htarget⟩ := Option.bind_eq_some_iff.1 h
  rcases node with _ | _ | _ <;> cases htarget
  exact hnode

/-- Are as many links met when the link at the place is followed as are counted? -/
def Costs (files : Files) (place : List Text) (count : Nat) : Prop :=
  ∃ (s found : Spot) (name target : Text) (met : List Meeting), s.IsSpelled ∧ name ≠ above
    ∧ (s.down name).place files = place ∧ files.targetAt? (s.down name) = some target
    ∧ files.Leads (s.base target) (target.split slash) met found ∧ count = met.length + 1

theorem Costs.unique {place : List Text} {count count' : Nat} (h : files.Costs place count)
    (h' : files.Costs place count') : count = count' := by
  obtain ⟨s, found, name, target, met, hs, habove, hplace, htarget, hleads, rfl⟩ := h
  obtain ⟨s', found', name', target', met', hs', habove', hplace', htarget', hleads', rfl⟩ := h'
  rw [targetAt?, hplace] at htarget
  rw [targetAt?, hplace', htarget] at htarget'
  obtain rfl := Option.some.inj htarget'
  have hparent : s'.place files = s.place files := by
    rw [Spot.place_down files _ habove] at hplace
    rw [Spot.place_down files _ habove'] at hplace'
    exact (List.append_inj' (hplace'.trans hplace.symm) rfl).1
  have hdepths := (hleads.unique_place hleads' (hs.base target) (hs'.base target)
    Text.not_mem_of_mem_split (by rw [Spot.place_base, Spot.place_base, hparent])).1
  rw [← List.length_map Meeting.depth, ← hdepths, List.length_map]

namespace Memo

/-- Does every link that a memo knows lead where it is known to? -/
def IsSound (files : Files) (memo : Memo) : Prop :=
  ∀ (s found : Spot) (name : Text), Entries.get? (s.down name) memo = some (some found) →
    ∃ target met, files.targetAt? (s.down name) = some target
      ∧ files.Leads (s.base target) (target.split slash) met found

/-- More links are met when a link that is being resolved is followed than are counted. -/
def IsOpen (files : Files) (memo : Memo) (count : Nat) : Prop :=
  ∀ s, Entries.get? s memo = some none → ∀ cost, files.Costs (s.place files) cost → count < cost

variable {memo : Memo} {count : Nat}

theorem isSound_nil (files : Files) : IsSound files [] := fun _ _ _ h => by cases h

theorem isOpen_nil (files : Files) (count : Nat) : IsOpen files [] count := fun _ h => by cases h

theorem IsSound.put_none (h : memo.IsSound files) (next : Spot) :
    IsSound files (Entries.put next none memo) := by
  intro s found name hfound
  rw [Entries.get?_put] at hfound
  split at hfound
  · cases hfound
  · exact h s found name hfound

theorem IsSound.put_some (h : memo.IsSound files) {s found : Spot} {name target : Text}
    {met : List Meeting} (htarget : files.targetAt? (s.down name) = some target)
    (hleads : files.Leads (s.base target) (target.split slash) met found) :
    IsSound files (Entries.put (s.down name) (some found) memo) := by
  intro s' found' name' hfound
  rw [Entries.get?_put] at hfound
  split at hfound
  · rename_i heq
    obtain ⟨rfl, rfl⟩ := Spot.down_injective (eq_of_beq heq)
    obtain rfl := Option.some.inj (Option.some.inj hfound)
    exact ⟨target, met, htarget, hleads⟩
  · exact h s' found' name' hfound

theorem IsOpen.mono (h : memo.IsOpen files count) {memo' : Memo} {count' : Nat}
    (hmemo : ∀ s, Entries.get? s memo' = some none → Entries.get? s memo = some none)
    (hcount : count' ≤ count) : memo'.IsOpen files count' := fun s hs cost hcost =>
  Nat.lt_of_le_of_lt hcount (h s (hmemo s hs) cost hcost)

theorem IsOpen.put_none (h : memo.IsOpen files count) {next : Spot} {cost : Nat}
    (hcost : files.Costs (next.place files) (cost + 1)) (hle : cost + 1 ≤ count) :
    IsOpen files (Entries.put next none memo) cost := by
  intro s hs cost' hcost'
  rw [Entries.get?_put] at hs
  split at hs
  · rename_i heq
    rw [← eq_of_beq heq] at hcost'
    rw [← hcost.unique hcost']
    exact Nat.lt_succ_self cost
  · exact Nat.lt_trans hle (h s hs cost' hcost')

end Memo

theorem linkAt?_eq (s : Spot) :
    files.linkAt? s = if pathLimit ≤ s.toText.size then none else files.targetAt? s := rfl

theorem isUsable_of_targetAt? (hfiles : files.IsUsable) {s : Spot} {target : Text}
    (h : files.targetAt? s = some target) : ∀ name ∈ target.split slash, name.IsUsable :=
  (isUsable_iff_split target).1 (hfiles.targets _ _ (exists_of_targetAt? h))

/-- Does the search see a link that is met, and has it room to resolve it? -/
structure Meeting.IsFollowed (link : Meeting) (depth : Nat) : Prop where
  short : link.spot.toText.size < pathLimit
  shallow : link.depth < depth

theorem Meeting.IsFollowed.of_inside {link : Meeting} {depth : Nat}
    (h : link.inside.IsFollowed (depth + 1)) : link.IsFollowed depth :=
  ⟨h.short, Nat.lt_of_succ_lt_succ h.shallow⟩

/-- A walk that leads somewhere is found, unless it meets a link at a spot that is spelled too long,
or deeper than links are followed. -/
theorem resolveNames_of_leads (hfiles : files.IsUsable) {s found : Spot} {names : List Text}
    {met : List Meeting} (h : files.Leads s names met found) :
    ∀ {memo : Memo} {depth : Nat}, s.IsSpelled →
      (∀ name ∈ names, slash ∉ name) → (∀ name ∈ names, name.IsUsable) →
      (∀ link ∈ met, link.IsFollowed depth) → memo.IsSound files →
      memo.IsOpen files met.length →
      ∃ memo', resolveNames files (files.resolve depth) memo s names = .ok (memo', .whole found)
        ∧ memo'.IsSound files
        ∧ ∀ s, Entries.get? s memo' = some none → Entries.get? s memo = some none := by
  induction h with
  | arrived =>
    intro memo depth _ _ _ _ hsound _
    exact ⟨memo, rfl, hsound, fun _ h => h⟩
  | idle hidle _ ih =>
    intro memo depth hs hnames husable hmet hsound hopen
    rw [resolveNames, if_pos hidle]
    exact ih hs (List.forall_mem_cons.1 hnames).2 (List.forall_mem_cons.1 husable).2 hmet hsound hopen
  | up habove _ ih =>
    intro memo depth hs hnames husable hmet hsound hopen
    have hidle : ¬ isIdle above = true := by decide
    rw [resolveNames, habove, if_neg hidle, if_pos rfl]
    exact ih hs.up (List.forall_mem_cons.1 hnames).2 (List.forall_mem_cons.1 husable).2 hmet hsound
      hopen
  | @down s _ name _ _ hidle habove htarget _ ih =>
    intro memo depth hs hnames husable hmet hsound hopen
    obtain ⟨hname, hrest⟩ := List.forall_mem_cons.1 hnames
    obtain ⟨hnameUsable, hrestUsable⟩ := List.forall_mem_cons.1 husable
    have hlink : files.linkAt? (s.down name) = none := by
      rw [linkAt?_eq, htarget]
      split <;> rfl
    rw [resolveNames, if_neg (by simp [hidle]), if_neg habove]
    simp only [show name.pathFault? = none from hnameUsable, hlink]
    exact ih (hs.down ⟨hname, hidle⟩ fun _ => habove) hrest hrestUsable hmet hsound hopen
  | @link s mid _ name target _ inside after hidle habove htarget hin _ ihinside ih =>
    intro memo depth hs hnames husable hmet hsound hopen
    obtain ⟨hname, hrest⟩ := List.forall_mem_cons.1 hnames
    obtain ⟨hnameUsable, hrestUsable⟩ := List.forall_mem_cons.1 husable
    obtain ⟨hfollowed, hmetInside, hmetAfter⟩ := forall_mem_link_iff.1 hmet
    -- There is room to resolve the link, and one less for those that are met inside of it.
    obtain ⟨d, rfl⟩ : ∃ d, depth = d + 1 :=
      ⟨depth - 1, (Nat.succ_pred_eq_of_pos hfollowed.shallow).symm⟩
    have hpieces : ∀ name ∈ target.split slash, slash ∉ name := Text.not_mem_of_mem_split
    have hmid := hin.isSpelled (hs.base target) hpieces
    have hcost : files.Costs ((s.down name).place files) (inside.length + 1) :=
      ⟨s, mid, name, target, inside, hs, habove, rfl, htarget, hin, rfl⟩
    rw [List.length_cons, List.length_append, List.length_map] at hopen
    have hle : inside.length + 1 ≤ inside.length + after.length + 1 := by omega
    have hleAfter : after.length ≤ inside.length + after.length + 1 := by omega
    have hlink : files.linkAt? (s.down name) = some target := by
      rw [linkAt?_eq, if_neg (Nat.not_le.2 hfollowed.short), htarget]
    rw [resolveNames, if_neg (by simp [hidle]), if_neg habove]
    simp only [show name.pathFault? = none from hnameUsable, hlink]
    rcases hget : Entries.get? (s.down name) memo with _ | _ | known
    · obtain ⟨memo', hresolve, hsound', hopen'⟩ := @ihinside _ d (hs.base target) hpieces
        (isUsable_of_targetAt? hfiles htarget) (fun link hlink => (hmetInside link hlink).of_inside)
        (hsound.put_none (s.down name)) (hopen.put_none hcost hle)
      have hnone : ∀ s', Entries.get? s' (Entries.put (s.down name) (some mid) memo') = some none →
          Entries.get? s' memo = some none := by
        intro s' hs'
        rw [Entries.get?_put] at hs'
        split at hs'
        · cases hs'
        · rename_i hne
          have hs' := hopen' s' hs'
          rwa [Entries.get?_put, if_neg hne] at hs'
      obtain ⟨memo'', hafter, hsound'', hopen''⟩ := ih hmid hrest hrestUsable hmetAfter
        (hsound'.put_some htarget hin) (hopen.mono hnone hleAfter)
      have htargetWalk : files.resolve (d + 1) (Entries.put (s.down name) none memo) s target
          = .ok (memo', .whole mid) := hresolve
      simp only [htargetWalk]
      exact ⟨memo'', hafter, hsound'', fun s' hs' => hnone s' (hopen'' s' hs')⟩
    · exact absurd (hopen _ hget _ hcost) (Nat.not_lt.2 hle)
    · obtain ⟨target', met', htarget', hleads⟩ := hsound s known name hget
      obtain rfl := Option.some.inj (htarget.symm.trans htarget')
      obtain ⟨-, rfl⟩ := hin.unique hleads
      exact ih hmid hrest hrestUsable hmetAfter hsound (hopen.mono (fun _ h => h) hleAfter)

end Files

end SearchConfig
