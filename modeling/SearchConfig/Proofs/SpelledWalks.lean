import Mathlib.Data.List.Induction
import SearchConfig.Proofs.OrderedEntries
import SearchConfig.Proofs.PathTexts

/-!
# Walks as they are spelled

The operating system walks from place to place, and the search for a canonical form from spot to
spot. `Files.Leads` says where a walk leads that follows every link, by the spots at which it meets
them and inside of how many others. Spots of one place lead to one place and meet links equally deep
(`Leads.unique_place`). Where the system comes to, a spelled walk leads as well, and no deeper than
the system follows links (`exists_leads`); for that the system's walk along names is taken apart
(`follow_append`, `follow_cons`).
-/

namespace SearchConfig

open SearchConfig.Path

namespace Path

theorem cleanParts_above (parts : List Text) :
    cleanParts (parts ++ [above]) = (cleanParts parts).dropLast := by
  rw [cleanParts, List.foldl_append]
  rfl

theorem cleanParts_append {name : Text} (h : name ≠ above) (parts : List Text) :
    cleanParts (parts ++ [name]) = cleanParts parts ++ [name] := by
  rw [cleanParts, List.foldl_append, List.foldl_cons, List.foldl_nil, if_neg h]
  rfl

theorem cleanParts_of_not_mem {parts : List Text} (h : above ∉ parts) :
    cleanParts parts = parts := by
  induction parts using List.reverseRecOn with
  | nil => rfl
  | append_singleton parts name ih =>
    rw [List.mem_append, List.mem_singleton, not_or] at h
    rw [cleanParts_append (Ne.symm h.2), ih h.1]

end Path

namespace Spot

/-- Is a spot spelled by names, and without steps upwards if it is seen from the root? -/
structure IsSpelled (s : Spot) : Prop where
  names : ∀ part ∈ s.parts, IsName part
  above : s.absolute = true → Path.above ∉ s.parts

theorem isSpelled_nil (absolute : Bool) : IsSpelled ⟨absolute, []⟩ :=
  ⟨fun _ h => absurd h List.not_mem_nil, fun _ => List.not_mem_nil⟩

theorem IsSpelled.down {s : Spot} (hs : s.IsSpelled) {name : Text} (hname : IsName name)
    (h : s.absolute = true → name ≠ Path.above) : (s.down name).IsSpelled where
  names := List.forall_mem_append.2 ⟨hs.names, List.forall_mem_singleton.2 hname⟩
  above habsolute := by
    rw [Spot.down, List.mem_append, List.mem_singleton, not_or]
    exact ⟨hs.above habsolute, (h habsolute).symm⟩

theorem IsSpelled.up {s : Spot} (hs : s.IsSpelled) : s.up.IsSpelled := by
  have habove : IsName Path.above := ⟨by decide, by decide⟩
  unfold Spot.up
  split
  · split
    · exact hs
    · rename_i habsolute
      exact hs.down habove fun h => absurd h habsolute
  · rename_i name hlast
    split
    · rename_i hname
      subst hname
      exact hs.down habove fun h => absurd (List.mem_of_getLast? hlast) (hs.above h)
    · exact ⟨fun part hpart => hs.names part (List.dropLast_subset _ hpart),
        fun h hmem => hs.above h (List.dropLast_subset _ hmem)⟩

theorem down_injective {s s' : Spot} {name name' : Text} (h : s.down name = s'.down name') :
    s = s' ∧ name = name' := by
  obtain ⟨absolute, parts⟩ := s
  obtain ⟨absolute', parts'⟩ := s'
  obtain ⟨rfl, hparts⟩ := Spot.mk.inj h
  obtain ⟨rfl, hname⟩ := List.append_inj' hparts rfl
  exact ⟨rfl, (List.cons.inj hname).1⟩

variable (files : Files)

theorem place_down (s : Spot) {name : Text} (h : name ≠ Path.above) :
    (s.down name).place files = s.place files ++ [name] := by
  unfold place Spot.down
  split
  · rfl
  · rw [← List.append_assoc, cleanParts_append h]

theorem place_up {s : Spot} (hs : s.IsSpelled) : s.up.place files = (s.place files).dropLast := by
  have hdown : s.absolute = false →
      (s.down Path.above).place files = (s.place files).dropLast := fun h => by
    simp only [place, Spot.down, h, Bool.false_eq_true, if_false]
    rw [← List.append_assoc, cleanParts_above]
  unfold Spot.up
  split
  · rename_i hnil
    split
    · rename_i habsolute
      rw [place, if_pos habsolute, List.getLast?_eq_none_iff.1 hnil]
      rfl
    · rename_i habsolute
      exact hdown (by simpa using habsolute)
  · rename_i name hlast
    split
    · rename_i hname
      subst hname
      refine hdown (Bool.eq_false_iff.2 fun habsolute => ?_)
      exact hs.above habsolute (List.mem_of_getLast? hlast)
    · rename_i hname
      have hparts : s.parts.dropLast ++ [name] = s.parts := List.dropLast_append_getLast? _ hlast
      have hs' : (⟨s.absolute, s.parts.dropLast⟩ : Spot).down name = s := by
        rw [Spot.down, hparts]
      rw [← congrArg (place files) hs', place_down files _ hname, List.dropLast_concat]

/-- The spot from which the names of a path are walked. -/
def base (s : Spot) (path : Text) : Spot := if path.head? = some slash then .root else s

theorem place_base (s : Spot) (path : Text) :
    (s.base path).place files = Files.origin (s.place files) path := by
  unfold base Files.origin
  split <;> rfl

theorem IsSpelled.base {s : Spot} (hs : s.IsSpelled) (path : Text) : (s.base path).IsSpelled := by
  unfold Spot.base
  split
  · exact isSpelled_nil true
  · exact hs

end Spot

namespace Node

theorem at?_append (names names' : List Text) (node : Node) :
    node.at? (names ++ names') = (node.at? names).bind (·.at? names') := by
  induction names generalizing node with
  | nil => rfl
  | cons name names ih =>
    rcases node with _ | _ | entries
    · rfl
    · rfl
    · rw [List.cons_append, at?, at?, Option.bind_assoc]
      exact congrArg _ (funext ih)

mutual

/-- The places of all links in an entry. -/
def linkPlaces : Node → List (List Text)
  | file _ => []
  | link _ => [[]]
  | directory entries => linkPlacesIn entries

def linkPlacesIn : List (Text × Node) → List (List Text)
  | [] => []
  | (name, node) :: entries => (linkPlaces node).map (List.cons name) ++ linkPlacesIn entries

end

theorem mem_linkPlacesIn {entries : List (Text × Node)} {name : Text} {node : Node}
    {place : List Text} (hnode : (name, node) ∈ entries) (h : place ∈ node.linkPlaces) :
    name :: place ∈ linkPlacesIn entries := by
  induction entries with
  | nil => cases hnode
  | cons entry entries ih =>
    rw [linkPlacesIn, List.mem_append]
    rcases List.mem_cons.1 hnode with rfl | hnode
    · exact .inl (List.mem_map.2 ⟨place, h, rfl⟩)
    · exact .inr (ih hnode)

theorem mem_linkPlaces {place : List Text} {node : Node} {target : Text}
    (h : node.at? place = some (link target)) : place ∈ node.linkPlaces := by
  induction place generalizing node with
  | nil =>
    obtain rfl := Option.some.inj h
    exact List.mem_singleton_self _
  | cons name place ih =>
    rcases node with _ | _ | entries
    · cases h
    · cases h
    · obtain ⟨child, hchild, hlink⟩ := Option.bind_eq_some_iff.1 h
      exact mem_linkPlacesIn (Entries.mem_of_get? hchild) (ih hlink)

end Node

namespace Files

variable {files : Files} {place : List Text} {name : Text} {rest : List Text}

theorem at?_down {entries : List (Text × Node)} (h : files.at? place = some (.directory entries)) :
    files.at? (place ++ [name]) = Entries.get? name entries := by
  rw [at?, Node.at?_append, ← at?, h, Option.bind_some, Node.at?]
  rcases Entries.get? name entries with _ | node <;> rfl

section Follow

variable {n : Nat} {dest : List Text}

theorem follow_of_advance {place' names names' : List Text}
    (h : files.advance place names = files.advance place' names') :
    files.follow n place names = files.follow n place' names' := by
  cases n <;> rw [follow, follow, h]

theorem advance_append (place names names' : List Text) :
    files.advance place (names ++ names') = match files.advance place names with
      | .arrived mid => files.advance mid names'
      | .atLink at_ target rest => .atLink at_ target (rest ++ names')
      | .failed error => .failed error := by
  induction names generalizing place with
  | nil => rfl
  | cons name names ih =>
    rw [List.cons_append, advance, advance]
    rcases files.at? place with _ | _ | _ | entries <;> try rfl
    simp only []
    split
    · exact ih _
    split
    · exact ih _
    split
    · rfl
    rcases Entries.get? name entries with _ | _ | _ | _
    · rfl
    · exact ih _
    · rfl
    · exact ih _

theorem follow_append {names names' : List Text}
    (h : files.follow n place (names ++ names') = .ok dest) :
    ∃ m mid, m ≤ n ∧ files.follow n place names = .ok mid
      ∧ files.follow m mid names' = .ok dest := by
  induction n generalizing place names with
  | zero =>
    have happend := files.advance_append place names names'
    rcases hadvance : files.advance place names with mid | ⟨at_, target, rest⟩ | error <;>
      rw [hadvance] at happend
    · rw [follow_of_advance happend] at h
      exact ⟨0, mid, Nat.le_refl _, by rw [follow, hadvance], h⟩
    · rw [follow, happend] at h
      cases h
    · rw [follow, happend] at h
      cases h
  | succ n ih =>
    have happend := files.advance_append place names names'
    rcases hadvance : files.advance place names with mid | ⟨at_, target, rest⟩ | error <;>
      rw [hadvance] at happend
    · rw [follow_of_advance happend] at h
      exact ⟨n + 1, mid, Nat.le_refl _, by rw [follow, hadvance], h⟩
    · rw [follow, happend] at h
      simp only [← List.append_assoc] at h
      obtain ⟨m, mid, hm, hmid, hdest⟩ := ih h
      exact ⟨m, mid, Nat.le_succ_of_le hm, by rw [follow, hadvance]; exact hmid, hdest⟩
    · rw [follow, happend] at h
      cases h

/-- The ways in which a walk goes on with its first name. -/
theorem follow_cons (h : files.follow n place (name :: rest) = .ok dest) :
    ∃ entries, files.at? place = some (.directory entries)
      ∧ (isIdle name = true ∧ files.follow n place rest = .ok dest
        ∨ name = above ∧ files.follow n place.dropLast rest = .ok dest
        ∨ isIdle name = false ∧ name ≠ above
          ∧ ((∃ target m, n = m + 1 ∧ Entries.get? name entries = some (.link target)
            ∧ files.follow m (origin place target) (target.split slash ++ rest) = .ok dest)
          ∨ ∃ node, Entries.get? name entries = some node ∧ node.target? = none
            ∧ files.follow n (place ++ [name]) rest = .ok dest)) := by
  have hfollow : ∀ {place' names}, files.advance place (name :: rest) = files.advance place' names →
      files.follow n place' names = .ok dest := fun heq => (follow_of_advance heq).symm.trans h
  have hfailed : ∀ error, files.advance place (name :: rest) ≠ .failed error := fun error heq => by
    cases n <;> (rw [follow, heq] at h; cases h)
  rcases hat : files.at? place with _ | _ | _ | entries
  iterate 3 exact absurd (by rw [advance, hat]) (hfailed .notDirectory)
  refine ⟨entries, rfl, ?_⟩
  rcases hidle : isIdle name
  swap
  · exact .inl ⟨rfl, hfollow (by simp only [advance, hat, hidle, if_true])⟩
  by_cases habove : name = above
  · subst habove
    exact .inr (.inl ⟨rfl, hfollow (by simp [advance, hat, hidle])⟩)
  refine .inr (.inr ⟨rfl, habove, ?_⟩)
  by_cases hsize : maxName < name.size
  · exact absurd (by simp [advance, hat, hidle, habove, hsize]) (hfailed .nameTooLong)
  rcases hget : Entries.get? name entries with _ | bytes | target | children
  · exact absurd (by simp [advance, hat, hidle, habove, hsize, hget]) (hfailed .noSuchFile)
  · exact .inr ⟨_, rfl, rfl, hfollow (by simp [advance, hat, hidle, habove, hsize, hget])⟩
  · have hadvance : files.advance place (name :: rest) = .atLink place target rest := by
      simp [advance, hat, hidle, habove, hsize, hget]
    rcases n with _ | m
    · rw [follow, hadvance] at h
      cases h
    · rw [follow, hadvance] at h
      exact .inl ⟨target, m, rfl, rfl, h⟩
  · exact .inr ⟨_, rfl, rfl, hfollow (by simp [advance, hat, hidle, habove, hsize, hget])⟩

end Follow

/-- The target of the link at a spot, however long the spot is spelled. -/
def targetAt? (files : Files) (s : Spot) : Option Text :=
  (files.at? (s.place files)).bind Node.target?

/-- A link that is met in a walk: at which spot, and inside of how many other links. -/
structure Meeting where
  spot : Spot
  depth : Nat

/-- The link as it is met inside of one more. -/
def Meeting.inside (link : Meeting) : Meeting := { link with depth := link.depth + 1 }

theorem map_depth_inside (met : List Meeting) :
    (met.map Meeting.inside).map Meeting.depth = (met.map Meeting.depth).map Nat.succ := by
  rw [List.map_map, List.map_map]
  rfl

/-- A walk that follows every link leads from a spot along names to another spot. It meets the listed
links, in this order. -/
inductive Leads (files : Files) : Spot → List Text → List Meeting → Spot → Prop
  | arrived {s : Spot} : Leads files s [] [] s
  | idle {s found : Spot} {name : Text} {rest : List Text} {met : List Meeting}
      (hidle : isIdle name = true) (hrest : Leads files s rest met found) :
      Leads files s (name :: rest) met found
  | up {s found : Spot} {name : Text} {rest : List Text} {met : List Meeting} (habove : name = above)
      (hrest : Leads files s.up rest met found) : Leads files s (name :: rest) met found
  | down {s found : Spot} {name : Text} {rest : List Text} {met : List Meeting}
      (hidle : isIdle name = false) (habove : name ≠ above)
      (htarget : files.targetAt? (s.down name) = none)
      (hrest : Leads files (s.down name) rest met found) : Leads files s (name :: rest) met found
  | link {s mid found : Spot} {name target : Text} {rest : List Text} {met met' : List Meeting}
      (hidle : isIdle name = false) (habove : name ≠ above)
      (htarget : files.targetAt? (s.down name) = some target)
      (hinside : Leads files (s.base target) (target.split slash) met mid)
      (hrest : Leads files mid rest met' found) :
      Leads files s (name :: rest) (⟨s.down name, 0⟩ :: (met.map Meeting.inside ++ met')) found

namespace Leads

section Cons

variable {s found : Spot} {met : List Meeting}

theorem cons_idle (hidle : isIdle name = true)
    (h : files.Leads s (name :: rest) met found) : files.Leads s rest met found := by
  cases h with
  | idle _ hrest => exact hrest
  | up habove _ => exact absurd hidle (by rw [habove]; decide)
  | down hidle' _ _ _ => simp [hidle] at hidle'
  | link hidle' _ _ _ _ => simp [hidle] at hidle'

theorem cons_above (h : files.Leads s (above :: rest) met found) :
    files.Leads s.up rest met found := by
  cases h with
  | idle hidle _ => exact absurd hidle (by decide)
  | up _ hrest => exact hrest
  | down _ habove _ _ => exact absurd rfl habove
  | link _ habove _ _ _ => exact absurd rfl habove

theorem cons_down (hidle : isIdle name = false) (habove : name ≠ above)
    (htarget : files.targetAt? (s.down name) = none)
    (h : files.Leads s (name :: rest) met found) : files.Leads (s.down name) rest met found := by
  cases h with
  | idle hidle' _ => simp [hidle] at hidle'
  | up habove' _ => exact absurd habove' habove
  | down _ _ _ hrest => exact hrest
  | link _ _ htarget' _ _ => simp [htarget] at htarget'

theorem cons_link {target : Text} (hidle : isIdle name = false) (habove : name ≠ above)
    (htarget : files.targetAt? (s.down name) = some target)
    (h : files.Leads s (name :: rest) met found) :
    ∃ mid inside after, met = ⟨s.down name, 0⟩ :: (inside.map Meeting.inside ++ after)
      ∧ files.Leads (s.base target) (target.split slash) inside mid
      ∧ files.Leads mid rest after found := by
  cases h with
  | idle hidle' _ => simp [hidle] at hidle'
  | up habove' _ => exact absurd habove' habove
  | down _ _ htarget' _ => simp [htarget] at htarget'
  | link _ _ htarget' hinside hrest =>
    obtain rfl := Option.some.inj (htarget.symm.trans htarget')
    exact ⟨_, _, _, rfl, hinside, hrest⟩

end Cons

variable {s found : Spot} {names : List Text} {met : List Meeting}

theorem unique {found' : Spot} {met' : List Meeting} (h : files.Leads s names met found)
    (h' : files.Leads s names met' found') : met = met' ∧ found = found' := by
  induction h generalizing met' found' with
  | arrived =>
    cases h'
    exact ⟨rfl, rfl⟩
  | idle hidle _ ih => exact ih (h'.cons_idle hidle)
  | up habove _ ih =>
    subst habove
    exact ih h'.cons_above
  | down hidle habove htarget _ ih => exact ih (h'.cons_down hidle habove htarget)
  | link hidle habove htarget _ _ ihinside ih =>
    obtain ⟨mid, inside, after, rfl, hinside, hafter⟩ := h'.cons_link hidle habove htarget
    obtain ⟨rfl, rfl⟩ := ihinside hinside
    obtain ⟨rfl, rfl⟩ := ih hafter
    exact ⟨rfl, rfl⟩

theorem exists_met_iff (h : files.Leads s names met found) (q : Meeting → Prop) :
    (∃ met' found' link, files.Leads s names met' found' ∧ link ∈ met' ∧ q link)
      ↔ ∃ link ∈ met, q link := by
  constructor
  · rintro ⟨met', found', link, h', hlink, hq⟩
    obtain ⟨rfl, -⟩ := h.unique h'
    exact ⟨link, hlink, hq⟩
  · rintro ⟨link, hlink, hq⟩
    exact ⟨met, found, link, h, hlink, hq⟩

theorem isSpelled (h : files.Leads s names met found) (hs : s.IsSpelled)
    (hnames : ∀ name ∈ names, slash ∉ name) : found.IsSpelled := by
  induction h with
  | arrived => exact hs
  | idle _ _ ih => exact ih hs (List.forall_mem_cons.1 hnames).2
  | up _ _ ih => exact ih hs.up (List.forall_mem_cons.1 hnames).2
  | down hidle habove _ _ ih =>
    obtain ⟨hname, hrest⟩ := List.forall_mem_cons.1 hnames
    exact ih (hs.down ⟨hname, hidle⟩ fun _ => habove) hrest
  | link _ _ _ _ _ ihinside ih =>
    exact ih (ihinside (hs.base _) Text.not_mem_of_mem_split) (List.forall_mem_cons.1 hnames).2

/-- A walk along more names goes on from where the walk along those in front ends. -/
theorem append_iff {rest : List Text} : files.Leads s (names ++ rest) met found ↔
    ∃ before mid after, met = before ++ after ∧ files.Leads s names before mid
      ∧ files.Leads mid rest after found := by
  constructor
  · intro h
    induction names generalizing s met with
    | nil => exact ⟨[], s, met, rfl, .arrived, h⟩
    | cons name names ih =>
      rw [List.cons_append] at h
      cases h with
      | idle hidle h =>
        obtain ⟨before, mid, after, rfl, hbefore, hafter⟩ := ih h
        exact ⟨before, mid, after, rfl, .idle hidle hbefore, hafter⟩
      | up habove h =>
        obtain ⟨before, mid, after, rfl, hbefore, hafter⟩ := ih h
        exact ⟨before, mid, after, rfl, .up habove hbefore, hafter⟩
      | down hidle habove htarget h =>
        obtain ⟨before, mid, after, rfl, hbefore, hafter⟩ := ih h
        exact ⟨before, mid, after, rfl, .down hidle habove htarget hbefore, hafter⟩
      | link hidle habove htarget hinside h =>
        obtain ⟨before, mid, after, rfl, hbefore, hafter⟩ := ih h
        refine ⟨_, mid, after, ?_, .link hidle habove htarget hinside hbefore, hafter⟩
        rw [← List.append_assoc, List.cons_append]
  · rintro ⟨before, mid, after, rfl, h, hafter⟩
    induction h with
    | arrived => exact hafter
    | idle hidle _ ih => exact .idle hidle (ih hafter)
    | up habove _ ih => exact .up habove (ih hafter)
    | down hidle habove htarget _ ih => exact .down hidle habove htarget (ih hafter)
    | link hidle habove htarget hinside _ _ ih =>
      rw [List.cons_append, List.cons_append, List.append_assoc]
      exact .link hidle habove htarget hinside (ih hafter)

/-- Spelled walks from spots of one place lead to one place and meet links equally deep. -/
theorem unique_place {s' found' : Spot} {met' : List Meeting} (h : files.Leads s names met found)
    (h' : files.Leads s' names met' found') (hs : s.IsSpelled) (hs' : s'.IsSpelled)
    (hnames : ∀ name ∈ names, slash ∉ name) (hplace : s'.place files = s.place files) :
    met'.map Meeting.depth = met.map Meeting.depth ∧ found'.place files = found.place files := by
  induction h generalizing s' found' met' with
  | arrived =>
    cases h'
    exact ⟨rfl, hplace⟩
  | idle hidle _ ih =>
    exact ih (h'.cons_idle hidle) hs hs' (List.forall_mem_cons.1 hnames).2 hplace
  | up habove _ ih =>
    subst habove
    refine ih h'.cons_above hs.up hs'.up (List.forall_mem_cons.1 hnames).2 ?_
    rw [Spot.place_up files hs', Spot.place_up files hs, hplace]
  | @down s _ name _ _ hidle habove htarget _ ih =>
    obtain ⟨hname, hrest⟩ := List.forall_mem_cons.1 hnames
    have hdown : (s'.down name).place files = (s.down name).place files := by
      rw [Spot.place_down files _ habove, Spot.place_down files _ habove, hplace]
    refine ih (h'.cons_down hidle habove ?_) (hs.down ⟨hname, hidle⟩ fun _ => habove)
      (hs'.down ⟨hname, hidle⟩ fun _ => habove) hrest hdown
    rwa [targetAt?, hdown]
  | @link s mid _ name target _ _ _ hidle habove htarget hin _ ihinside ih =>
    have hdown : (s'.down name).place files = (s.down name).place files := by
      rw [Spot.place_down files _ habove, Spot.place_down files _ habove, hplace]
    have htarget' : files.targetAt? (s'.down name) = some target := by rwa [targetAt?, hdown]
    obtain ⟨mid', inside, after, rfl, hinside, hafter⟩ := h'.cons_link hidle habove htarget'
    have hpieces : ∀ name ∈ target.split slash, slash ∉ name := Text.not_mem_of_mem_split
    obtain ⟨hdepth, hmid⟩ := ihinside hinside (hs.base target) (hs'.base target) hpieces (by
      rw [Spot.place_base, Spot.place_base, hplace])
    obtain ⟨hdepth', hfound⟩ := ih hafter (hin.isSpelled (hs.base target) hpieces)
      (hinside.isSpelled (hs'.base target) hpieces) (List.forall_mem_cons.1 hnames).2 hmid
    refine ⟨?_, hfound⟩
    rw [List.map_cons, List.map_append, map_depth_inside, hdepth, hdepth', ← map_depth_inside,
      ← List.map_append, List.map_cons]

end Leads

theorem forall_mem_link_iff {P : Meeting → Prop} {s : Spot} {name : Text}
    {inside after : List Meeting} :
    (∀ link ∈ (⟨s.down name, 0⟩ : Meeting) :: (inside.map Meeting.inside ++ after), P link)
      ↔ P ⟨s.down name, 0⟩ ∧ (∀ link ∈ inside, P link.inside) ∧ ∀ link ∈ after, P link := by
  rw [List.forall_mem_cons, List.forall_mem_append, List.forall_mem_map]

theorem targetAt?_down {s : Spot} {entries : List (Text × Node)} (habove : name ≠ above)
    (h : files.at? (s.place files) = some (.directory entries)) :
    files.targetAt? (s.down name) = (Entries.get? name entries).bind Node.target? := by
  rw [targetAt?, Spot.place_down files s habove, at?_down h]

/-- Where the system's walk comes to, a spelled walk leads as well. It meets no link inside of as many
as the system follows. -/
theorem exists_leads (n : Nat) : ∀ {names : List Text} {s : Spot} {dest : List Text},
    s.IsSpelled → (∀ name ∈ names, slash ∉ name) → files.follow n (s.place files) names = .ok dest →
      ∃ met found, files.Leads s names met found ∧ (∀ link ∈ met, link.depth < n)
        ∧ found.place files = dest := by
  induction n using Nat.strongRecOn with
  | ind n ih =>
    intro names
    induction names with
    | nil =>
      intro s dest _ _ h
      have hnil : files.follow n (s.place files) [] = .ok (s.place files) := by cases n <;> rfl
      exact ⟨[], s, .arrived, fun _ h => absurd h List.not_mem_nil,
        Except.ok.inj (hnil.symm.trans h)⟩
    | cons name rest ihrest =>
      intro s dest hs hnames h
      obtain ⟨hname, hrest⟩ := List.forall_mem_cons.1 hnames
      obtain ⟨entries, hat, ⟨hidle, h⟩ | ⟨habove, h⟩ | ⟨hidle, habove, hdown⟩⟩ := follow_cons h
      · obtain ⟨met, found, hleads, hmet, hfound⟩ := ihrest hs hrest h
        exact ⟨met, found, .idle hidle hleads, hmet, hfound⟩
      · rw [← Spot.place_up files hs] at h
        obtain ⟨met, found, hleads, hmet, hfound⟩ := ihrest hs.up hrest h
        exact ⟨met, found, .up habove hleads, hmet, hfound⟩
      have htarget := targetAt?_down habove hat
      obtain ⟨target, m, rfl, hget, h⟩ | ⟨node, hget, hnode, h⟩ := hdown
      · have hpieces : ∀ name ∈ target.split slash, slash ∉ name := Text.not_mem_of_mem_split
        obtain ⟨m', place, hm', hinside, hafter⟩ := follow_append h
        rw [← Spot.place_base] at hinside
        obtain ⟨met, mid, hleads, hmet, hmid⟩ :=
          ih m (Nat.lt_succ_self m) (hs.base target) hpieces hinside
        subst hmid
        obtain ⟨met', found, hleads', hmet', hfound⟩ := ih m' (Nat.lt_succ_of_le hm')
          (hleads.isSpelled (hs.base target) hpieces) hrest hafter
        rw [hget] at htarget
        refine ⟨_, found, .link hidle habove htarget hleads hleads', ?_, hfound⟩
        exact forall_mem_link_iff.2 ⟨Nat.succ_pos m,
          fun link hlink => Nat.succ_lt_succ (hmet link hlink),
          fun link hlink => Nat.lt_succ_of_lt (Nat.lt_of_lt_of_le (hmet' link hlink) hm')⟩
      · rw [hget, Option.bind_some, hnode] at htarget
        rw [← Spot.place_down files s habove] at h
        obtain ⟨met, found, hleads, hmet, hfound⟩ :=
          ihrest (hs.down ⟨hname, hidle⟩ fun _ => habove) hrest h
        exact ⟨met, found, .down hidle habove htarget hleads, hmet, hfound⟩

end Files

end SearchConfig
