import SearchConfig.Proofs.OrderedEntries
import SearchConfig.Proofs.PathTexts
import SearchConfig.Settings.EnvFiles

/-!
# What environment files assign

An environment file without a dollar sign assigns no value with one (`not_mem_of_assigned`): a value
holds what stands in the file and what escapes stand for. So its values stand for themselves
(`resolved_of_not_mem`), and its entries are its assignments and listed names put together
(`entries_eq_collapse`). Where every name has one spelling and none is both assigned and listed, an
entry has the value that was assigned last, in whatever case it is asked for (`last?_entries`).
-/

namespace SearchConfig

namespace Entries

variable {κ κ' α : Type} [BEq κ] [LawfulBEq κ] [BEq κ'] [LawfulBEq κ']

/-- If just one key is taken to another, the entries taken there give the other its last value. -/
theorem last?_map_of_unique {f : κ → κ'} {key : κ'} {k : κ} {entries : List (κ × α)}
    (h : ∀ k' ∈ keys entries, f k' = key ↔ k' = k) :
    last? key (entries.map (Prod.map f id)) = last? k entries := by
  induction entries using List.reverseRecOn with
  | nil => rfl
  | append_singleton entries entry ih =>
    obtain ⟨k', v⟩ := entry
    have hk : (f k' == key) = (k' == k) := by
      rw [Bool.eq_iff_iff, beq_iff_eq, beq_iff_eq]
      exact h k' (by simp [keys])
    rw [List.map_append, List.map_singleton, Prod.map_apply, last?_append_singleton,
      last?_append_singleton, hk, ih fun k'' hk'' => h k'' (by simp_all [keys])]
    rfl

theorem last?_eq_none {key : κ} {entries : List (κ × α)} (h : key ∉ keys entries) :
    last? key entries = none := by
  rcases hlast : last? key entries with _ | v
  · rfl
  · exact absurd (List.mem_map_of_mem (mem_of_last? hlast)) h

/-- The entries that have a value. -/
def present (entries : List (κ × Option α)) : List (κ × α) :=
  entries.filterMap fun (key, value) => value.map (key, ·)

omit [BEq κ] [LawfulBEq κ] in
theorem mem_present_iff {key : κ} {v : α} {entries : List (κ × Option α)} :
    (key, v) ∈ present entries ↔ (key, some v) ∈ entries := by
  simp only [present, List.mem_filterMap, Option.map_eq_some_iff, Prod.mk.injEq]
  constructor
  · rintro ⟨⟨k, o⟩, hmem, v', rfl, rfl, rfl⟩
    exact hmem
  · exact fun h => ⟨(key, some v), h, v, rfl, rfl, rfl⟩

/-- The last value of a key is the last of the values that are there, if all of its values are there
or none is. -/
theorem join_last? {key : κ} {entries : List (κ × Option α)}
    (h : ∀ v, (key, some v) ∈ entries → (key, none) ∉ entries) :
    (last? key entries).join = last? key (present entries) := by
  induction entries using List.reverseRecOn with
  | nil => rfl
  | append_singleton entries entry ih =>
    obtain ⟨k, o⟩ := entry
    have ih := ih fun v hv hnone => h v (List.mem_append_left _ hv) (List.mem_append_left _ hnone)
    rw [last?_append_singleton, present, List.filterMap_append, ← present]
    by_cases hk : k = key
    · subst hk
      rw [if_pos (beq_self_eq_true k)]
      rcases o with _ | v
      · have habsent : k ∉ keys (present entries) := fun hmem => by
          obtain ⟨⟨k', v⟩, hentry, rfl⟩ := List.mem_map.1 hmem
          exact h v (List.mem_append_left _ (mem_present_iff.1 hentry)) (by simp)
        simp [last?_eq_none habsent]
      · simp [last?_append_singleton]
    · have hne : (k == key) = false := by simpa using hk
      rcases o with _ | v
      · simpa [hne] using ih
      · simpa [last?_append_singleton, hne] using ih

end Entries

namespace EnvFile

/-- What a reference to another value begins with. -/
def dollar : CodePoint := .scalar '$'

section Subset

theorem skipInnerBlanks_subset (t : Text) : skipInnerBlanks t ⊆ t := List.dropWhile_subset _

theorem nextLine_subset (t : Text) : nextLine t ⊆ t :=
  List.Subset.trans (List.drop_subset _ _) (List.dropWhile_subset _)

theorem skipExport_subset (t : Text) : skipExport t ⊆ t := by
  unfold skipExport
  simp only []
  split
  · exact List.Subset.trans (skipInnerBlanks_subset _) (List.drop_subset _ _)
  · exact List.Subset.refl t

theorem withoutComment_subset (t : Text) : withoutComment t ⊆ t := by
  induction t with
  | nil => exact List.Subset.refl _
  | cons c t ih =>
    rw [withoutComment]
    split
    · exact List.nil_subset _
    · exact List.cons_subset_cons c ih

theorem trimEnd_subset (t : Text) : trimEnd t ⊆ t := by
  intro c hc
  rw [trimEnd, List.mem_reverse] at hc
  exact List.mem_reverse.1 (List.dropWhile_subset _ hc)

theorem bare_subset (t : Text) : bare t ⊆ t :=
  List.Subset.trans (trimEnd_subset _)
    (List.Subset.trans (withoutComment_subset _) (List.takeWhile_subset _))

theorem quoted?_subset {quote : CodePoint} : ∀ {t body rest : Text},
    quoted? quote t = some (body, rest) → body ⊆ t ∧ rest ⊆ t
  | [], body, rest, h => by cases h
  | [c], body, rest, h => by
    rw [quoted?] at h
    split at h <;> cases h
    exact ⟨List.nil_subset _, List.nil_subset _⟩
  | c :: d :: t, body, rest, h => by
    rw [quoted?] at h
    split at h
    · cases h
      exact ⟨List.nil_subset _, List.subset_cons_self _ _⟩
    split at h <;> obtain ⟨⟨inside, rest'⟩, h, heq⟩ := Option.map_eq_some_iff.1 h <;> cases heq <;>
      obtain ⟨hinside, hrest⟩ := quoted?_subset h
    · exact ⟨List.cons_subset_cons _ (List.cons_subset_cons _ hinside),
        List.subset_cons_of_subset _ (List.subset_cons_of_subset _ hrest)⟩
    · exact ⟨List.cons_subset_cons _ hinside, List.subset_cons_of_subset _ hrest⟩

theorem name?_subset {t name rest : Text} (h : name? t = some (name, rest)) : rest ⊆ t := by
  unfold name? at h
  split at h
  · cases h
  · rename_i c t
    simp only [] at h
    split at h
    · split at h
      · cases h
      · rename_i hdrop
        split at h <;> cases h
        intro d hd
        have hmem := List.drop_subset _ _ (hdrop ▸ List.mem_cons_of_mem _ hd)
        exact List.mem_cons_of_mem _ hmem
    · split at h <;> cases h
      exact List.drop_subset _ _

theorem close_eq (s : Statement) (t : Text) : ∃ rest, rest ⊆ t
    ∧ (close s t = (s, rest.drop 1) ∨ close s t = (.broken, nextLine rest)) := by
  refine ⟨if (skipInnerBlanks t).head? = some hash
    then (skipInnerBlanks t).dropWhile (· != newline) else skipInnerBlanks t, ?_, ?_⟩
  · split
    · exact List.Subset.trans (List.dropWhile_subset _) (skipInnerBlanks_subset t)
    · exact skipInnerBlanks_subset t
  · exact ite_eq_or_eq _ _ _

theorem close_subset (s : Statement) (t : Text) : (close s t).2 ⊆ t := by
  obtain ⟨rest, hrest, h | h⟩ := close_eq s t <;> rw [h]
  · exact List.Subset.trans (List.drop_subset _ _) hrest
  · exact List.Subset.trans (nextLine_subset _) hrest

theorem eq_of_close {s : Statement} {t name value : Text}
    (h : (close s t).1 = .assigned name value) : s = .assigned name value := by
  obtain ⟨rest, -, heq | heq⟩ := close_eq s t <;> rw [heq] at h
  · exact h
  · cases h

end Subset

theorem not_mem_unescape {resolve? : CodePoint → Option CodePoint}
    (hresolve : ∀ c e, resolve? c = some e → e ≠ dollar) {t : Text} (h : dollar ∉ t) :
    dollar ∉ unescape resolve? t := by
  induction t using unescape.induct resolve? with
  | case1 => exact h
  | case2 => exact h
  | case3 d t e he ih =>
    simp only [List.mem_cons, not_or] at h
    rw [unescape, if_pos rfl]
    simp only [he, List.mem_cons, not_or]
    exact ⟨(hresolve d e he).symm, ih h.2.2⟩
  | case4 d t he ih =>
    rw [List.mem_cons, not_or] at h
    rw [unescape, if_pos rfl]
    simp only [he, List.mem_cons, not_or]
    exact ⟨h.1, by simpa using ih h.2⟩
  | case5 c d t hc ih =>
    rw [List.mem_cons, not_or] at h
    rw [unescape, if_neg hc, List.mem_cons, not_or]
    exact ⟨h.1, ih h.2⟩

theorem plainEscaped?_ne_dollar (c e : CodePoint) (h : plainEscaped? c = some e) : e ≠ dollar := by
  unfold plainEscaped? at h
  split at h <;> cases h
  rename_i hc
  rcases hc with rfl | rfl <;> decide

theorem escaped?_ne_dollar (c e : CodePoint) (h : escaped? c = some e) : e ≠ dollar := by
  unfold escaped? at h
  split at h
  iterate 7 exact Option.some.inj h ▸ by decide
  split at h <;> cases h
  rename_i hc
  rcases hc with rfl | rfl | rfl <;> decide

/-- A value is what stands in the text or what an escape stands for. -/
theorem value?_subset {t value rest : Text} (h : value? t = some (value, rest)) :
    rest ⊆ t ∧ (dollar ∉ t → dollar ∉ value) := by
  unfold value? at h
  have hskip := skipInnerBlanks_subset t
  rcases hvalue : skipInnerBlanks t with _ | ⟨c, body⟩ <;> simp only [hvalue] at h hskip
  · cases h
    exact ⟨List.nil_subset _, fun _ => List.not_mem_nil⟩
  have hbody : body ⊆ t := List.Subset.trans (List.subset_cons_self _ _) hskip
  have hquoted : ∀ {resolve? : CodePoint → Option CodePoint},
      (∀ c e, resolve? c = some e → e ≠ dollar) →
      (quoted? c body).map (fun found => (unescape resolve? found.1, found.2))
        = some (value, rest) → rest ⊆ t ∧ (dollar ∉ t → dollar ∉ value) := by
    intro resolve? hresolve h
    obtain ⟨⟨inside, rest'⟩, hfound, heq⟩ := Option.map_eq_some_iff.1 h
    obtain ⟨rfl, rfl⟩ := Prod.mk.inj heq
    obtain ⟨hinside, hrest⟩ := quoted?_subset hfound
    exact ⟨List.Subset.trans hrest hbody, fun hdollar =>
      not_mem_unescape hresolve fun hmem => hdollar (hbody (hinside hmem))⟩
  -- A value stands in single quotes, in double quotes or bare.
  split at h
  · exact hquoted plainEscaped?_ne_dollar h
  split at h
  · exact hquoted escaped?_ne_dollar h
  split at h <;> cases h
  · exact ⟨hskip, fun _ => List.not_mem_nil⟩
  · exact ⟨List.Subset.trans (List.dropWhile_subset _) hskip, fun hdollar hmem =>
      hdollar (hskip (bare_subset _ hmem))⟩

theorem statement_subset (t : Text) : (statement t).2 ⊆ t := by
  have hblanks : t.dropWhile CodePoint.isBlank ⊆ t := List.dropWhile_subset _
  have hexport := List.Subset.trans (skipExport_subset (t.dropWhile CodePoint.isBlank)) hblanks
  unfold statement
  simp only []
  split
  · exact List.nil_subset _
  split
  · exact List.Subset.trans (close_subset _ _) hexport
  split
  · exact List.Subset.trans (nextLine_subset _) hexport
  · rename_i name rest hname
    have hrest := List.Subset.trans (skipInnerBlanks_subset rest)
      (List.Subset.trans (name?_subset hname) hexport)
    split
    · have hdrop := List.Subset.trans (List.drop_subset 1 (skipInnerBlanks rest)) hrest
      split
      · exact List.Subset.trans (nextLine_subset _) hdrop
      · rename_i hvalue
        exact List.Subset.trans (close_subset _ _)
          (List.Subset.trans (value?_subset hvalue).1 hdrop)
    · exact List.Subset.trans (close_subset _ _) hrest

theorem not_mem_of_statement {t name value : Text} (h : (statement t).1 = .assigned name value)
    (hdollar : dollar ∉ t) : dollar ∉ value := by
  have hblanks : t.dropWhile CodePoint.isBlank ⊆ t := List.dropWhile_subset _
  have hexport := List.Subset.trans (skipExport_subset (t.dropWhile CodePoint.isBlank)) hblanks
  unfold statement at h
  simp only [] at h
  split at h
  · cases h
  split at h
  · cases eq_of_close h
  split at h
  · cases h
  · rename_i name' rest hname
    have hrest := List.Subset.trans (skipInnerBlanks_subset rest)
      (List.Subset.trans (name?_subset hname) hexport)
    split at h
    · split at h
      · cases h
      · rename_i value' rest' hvalue
        cases eq_of_close h
        exact (value?_subset hvalue).2 fun hmem => hdollar (hrest (List.drop_subset _ _ hmem))
    · cases eq_of_close h

theorem not_mem_of_statementsFrom {line : Nat} {t : Text} (hdollar : dollar ∉ t) {n : Nat}
    {name value : Text} (h : (n, Statement.assigned name value) ∈ statementsFrom line t) :
    dollar ∉ value := by
  induction line, t using statementsFrom.induct with
  | case1 line t hempty =>
    rw [statementsFrom, if_pos hempty] at h
    cases h
  | case2 line t hempty s rest hstatement hlength ih =>
    have hrest : rest ⊆ t := by
      have hsubset := statement_subset t
      rwa [hstatement] at hsubset
    rw [statementsFrom, if_neg hempty] at h
    simp only [hstatement, hlength, if_true] at h
    rcases List.mem_cons.1 h with heq | hmem
    · have hs : s = .assigned name value := (Prod.mk.inj heq).2.symm
      exact not_mem_of_statement (by rw [hstatement, hs]) hdollar
    · exact ih (fun hmem => hdollar (hrest hmem)) hmem
  | case3 line t hempty s rest hstatement hlength =>
    rw [statementsFrom, if_neg hempty] at h
    simp only [hstatement, hlength, if_false] at h
    have hs : s = .assigned name value := (Prod.mk.inj (List.mem_singleton.1 h)).2.symm
    exact not_mem_of_statement (by rw [hstatement, hs]) hdollar

theorem not_mem_unifyLines {t : Text} (h : dollar ∉ t) : dollar ∉ unifyLines t := by
  have hnewline : dollar ≠ newline := by decide
  induction t using unifyLines.induct with
  | case1 => exact h
  | case2 t ih =>
    simp only [List.mem_cons, not_or] at h
    simp only [unifyLines, List.mem_cons, not_or]
    exact ⟨hnewline, ih h.2.2⟩
  | case3 t hnext ih =>
    rw [List.mem_cons, not_or] at h
    rw [unifyLines, List.mem_cons, not_or]
    · exact ⟨hnewline, ih h.2⟩
    · exact hnext
  | case4 c t hnext hc ih =>
    rw [List.mem_cons, not_or] at h
    rw [unifyLines, List.mem_cons, not_or]
    · exact ⟨h.1, ih h.2⟩
    · exact hnext
    · exact hc

/-- Of a file without a dollar sign, no value that is assigned has one. -/
theorem not_mem_of_assigned {t : Text} (hdollar : dollar ∉ t) {line : Nat} {name value : Text}
    (h : (line, Statement.assigned name value) ∈ statements t) : dollar ∉ value := by
  unfold statements at h
  refine not_mem_of_statementsFrom (not_mem_unifyLines ?_) h
  split
  · exact fun hmem => hdollar (List.drop_subset _ _ hmem)
  · exact hdollar

theorem pieces_of_not_mem {t : Text} (h : dollar ∉ t) : pieces t = t.map .point := by
  induction t with
  | nil => rw [pieces, List.map_nil]
  | cons c t ih =>
    rw [List.mem_cons, not_or] at h
    rw [pieces, ih h.2, List.map_cons]
    rintro t' rfl
    exact absurd rfl h.1

/-- A value without a dollar sign stands for itself. -/
theorem resolved_of_not_mem {environment : List (Text × Text)} {above : List (Text × Option Text)}
    {value : Text} (h : dollar ∉ value) : resolved environment above value = value := by
  rw [resolved, pieces_of_not_mem h, List.flatMap_map]
  exact List.flatMap_singleton' value

/-! ## Names -/

/-- The names of a file in the order of its statements, each with what is assigned to it; one that is
only listed has nothing. -/
def listings (t : Text) : List (Text × Option Text) :=
  (statements t).filterMap fun
    | (_, .assigned name value) => some (name, some value)
    | (_, .listed name) => some (name, none)
    | _ => none

/-- The assignments of a file in their order. -/
def assignments (t : Text) : List (Text × Text) := Entries.present (listings t)

/-- Has every name of a file one spelling, and is none both assigned and listed? -/
structure HasClearNames (t : Text) : Prop where
  spelling : ∀ name ∈ Entries.keys (listings t), ∀ name' ∈ Entries.keys (listings t),
    name.lower = name'.lower → name = name'
  assigned : ∀ name value, (name, some value) ∈ listings t → (name, none) ∉ listings t

theorem entries_eq_collapse {t : Text} (hdollar : dollar ∉ t) (environment : List (Text × Text)) :
    entries environment t = Entries.collapse (listings t) := by
  have hvalues : ∀ line name value, (line, Statement.assigned name value) ∈ statements t →
      dollar ∉ value := fun line name value h => not_mem_of_assigned hdollar h
  unfold entries listings Entries.collapse
  -- The induction is on the statements, above any entries that were put together before.
  generalize statements t = statements at hvalues
  generalize ([] : List (Text × Option Text)) = above
  induction statements generalizing above with
  | nil => rfl
  | cons head statements ih =>
    obtain ⟨line, s⟩ := head
    have ih := ih fun line name value h => hvalues line name value (List.mem_cons_of_mem _ h)
    rw [List.foldl_cons, ih]
    rcases s with ⟨name, value⟩ | name | _ | _
    · simp only [resolved_of_not_mem (hvalues line name value (List.mem_cons_self ..))]
      rfl
    · rfl
    · rfl
    · rfl

/-- In whatever case a name is asked for, the entries of a file give what was assigned to it last. -/
theorem last?_entries {t : Text} (hdollar : dollar ∉ t) (hnames : HasClearNames t)
    (environment : List (Text × Text)) (key : Text) :
    (Entries.last? key ((entries environment t).map (Prod.map Text.lower id))).join
      = Entries.last? key ((assignments t).map (Prod.map Text.lower id)) := by
  have hcollapse : ∀ name ∈ Entries.keys (Entries.collapse (listings t)),
      name ∈ Entries.keys (listings t) := fun name hname => by
    obtain ⟨entry, hentry, rfl⟩ := List.mem_map.1 hname
    exact List.mem_map_of_mem (Entries.mem_of_mem_collapse hentry)
  have hassigned : ∀ name ∈ Entries.keys (assignments t), name ∈ Entries.keys (listings t) := by
    intro name hname
    obtain ⟨⟨name, value⟩, hentry, rfl⟩ := List.mem_map.1 hname
    exact List.mem_map.2 ⟨_, Entries.mem_present_iff.1 hentry, rfl⟩
  rw [entries_eq_collapse hdollar]
  -- Only one spelling of the name can be among the listings, and so among their entries.
  by_cases hname : ∃ name ∈ Entries.keys (listings t), name.lower = key
  · obtain ⟨name, hname, rfl⟩ := hname
    have hunique : ∀ name' ∈ Entries.keys (listings t), name'.lower = name.lower ↔ name' = name :=
      fun name' hname' => ⟨hnames.spelling name' hname' name hname, congrArg Text.lower⟩
    rw [Entries.last?_map_of_unique fun name' h => hunique name' (hcollapse name' h),
      Entries.last?_map_of_unique fun name' h => hunique name' (hassigned name' h),
      Entries.last?_collapse, Entries.join_last? (hnames.assigned name)]
    rfl
  · have hnone : ∀ {α : Type} {list : List (Text × α)},
        (∀ name ∈ Entries.keys list, name ∈ Entries.keys (listings t)) →
        Entries.last? key (list.map (Prod.map Text.lower id)) = none := fun hlist => by
      refine Entries.last?_eq_none fun hmem => ?_
      simp only [Entries.keys, List.map_map, List.mem_map] at hmem
      obtain ⟨entry, hentry, heq⟩ := hmem
      exact hname ⟨entry.1, hlist _ (List.mem_map_of_mem hentry), heq⟩
    rw [hnone hcollapse, hnone hassigned]
    rfl

end EnvFile

end SearchConfig
