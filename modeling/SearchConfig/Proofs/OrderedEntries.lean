import Mathlib.Data.List.Find
import Mathlib.Data.List.Induction
import Mathlib.Data.List.Nodup
import SearchConfig.Entries

/-!
# Entries put together

Entries put together have no key twice (`nodup_collapse`) and give every key the value that it had
last (`last?_collapse`), so putting them together once more changes nothing (`collapse_collapse`).
Changing the values, or the keys without making two of them alike, commutes with it
(`map_collapse`).
-/

namespace SearchConfig.Entries

/-- The keys in their order. -/
def keys {κ α : Type} (entries : List (κ × α)) : List κ := entries.map Prod.fst

section Map

variable {κ κ' α β : Type} [BEq κ] [BEq κ'] {f : κ → κ'}

theorem map_put (hf : ∀ a b, (f a == f b) = (a == b)) (g : α → β) (key : κ) (value : α)
    (entries : List (κ × α)) :
    (put key value entries).map (Prod.map f g)
      = put (f key) (g value) (entries.map (Prod.map f g)) := by
  induction entries with
  | nil => rfl
  | cons entry entries ih =>
    obtain ⟨k, v⟩ := entry
    simp only [put, List.map_cons, Prod.map_apply, hf]
    split
    · rfl
    · rw [List.map_cons, ih, Prod.map_apply]

theorem collapse_append_singleton (entries : List (κ × α)) (key : κ) (value : α) :
    collapse (entries ++ [(key, value)]) = put key value (collapse entries) := by
  simp [collapse]

theorem map_collapse (hf : ∀ a b, (f a == f b) = (a == b)) (g : α → β) (entries : List (κ × α)) :
    (collapse entries).map (Prod.map f g) = collapse (entries.map (Prod.map f g)) := by
  induction entries using List.reverseRecOn with
  | nil => rfl
  | append_singleton entries entry ih =>
    obtain ⟨k, v⟩ := entry
    rw [collapse_append_singleton, map_put hf, ih, List.map_append, List.map_singleton,
      Prod.map_apply, collapse_append_singleton]

theorem mapValues_put (g : α → β) (key : κ) (value : α) (entries : List (κ × α)) :
    mapValues g (put key value entries) = put key (g value) (mapValues g entries) :=
  map_put (f := id) (fun _ _ => rfl) g key value entries

theorem mapValues_collapse (g : α → β) (entries : List (κ × α)) :
    mapValues g (collapse entries) = collapse (mapValues g entries) :=
  map_collapse (f := id) (fun _ _ => rfl) g entries

omit [BEq κ] in
theorem keys_mapValues (g : α → β) (entries : List (κ × α)) :
    keys (mapValues g entries) = keys entries := by
  simp [keys, mapValues, Function.comp_def]

theorem get?_cons (key k : κ) (v : α) (entries : List (κ × α)) :
    get? key ((k, v) :: entries) = if k == key then some v else get? key entries := by
  rw [get?, List.find?_cons, get?]
  split <;> simp_all

theorem get?_mapValues (g : α → β) (key : κ) (entries : List (κ × α)) :
    get? key (mapValues g entries) = (get? key entries).map g := by
  induction entries with
  | nil => rfl
  | cons entry entries ih =>
    obtain ⟨k, v⟩ := entry
    rw [mapValues, List.map_cons, get?_cons, get?_cons, ← mapValues, ih]
    split <;> rfl

end Map

variable {κ α β : Type} [BEq κ] [LawfulBEq κ]

theorem put_of_not_mem {key : κ} {entries : List (κ × α)} (h : key ∉ keys entries) (value : α) :
    put key value entries = entries ++ [(key, value)] := by
  induction entries with
  | nil => rfl
  | cons entry entries ih =>
    obtain ⟨k, v⟩ := entry
    simp only [keys, List.map_cons, List.mem_cons, not_or] at h
    have hk : ¬ (k == key) = true := fun hk => h.1 (eq_of_beq hk).symm
    rw [put, if_neg hk, ih h.2]
    rfl

theorem keys_put_of_mem {key : κ} {entries : List (κ × α)} (h : key ∈ keys entries) (value : α) :
    keys (put key value entries) = keys entries := by
  induction entries with
  | nil => exact absurd h List.not_mem_nil
  | cons entry entries ih =>
    obtain ⟨k, v⟩ := entry
    rw [put]
    split
    · rfl
    · rename_i hk
      have hmem : key ∈ keys entries := by
        rcases List.mem_cons.1 h with rfl | hmem
        · exact absurd (beq_self_eq_true _) hk
        · exact hmem
      exact congrArg (k :: ·) (ih hmem)

theorem nodup_put {key : κ} {entries : List (κ × α)} (h : (keys entries).Nodup) (value : α) :
    (keys (put key value entries)).Nodup := by
  by_cases hmem : key ∈ keys entries
  · rwa [keys_put_of_mem hmem]
  · rw [put_of_not_mem hmem, keys, List.map_append, List.map_singleton]
    exact List.nodup_append.2 ⟨h, List.nodup_singleton _, fun k hk k' hk' heq =>
      hmem (by rwa [heq, List.mem_singleton.1 hk'] at hk)⟩

theorem get?_put (key k : κ) (v : α) (entries : List (κ × α)) :
    get? key (put k v entries) = if k == key then some v else get? key entries := by
  induction entries with
  | nil => simp [put, get?_cons]
  | cons entry entries ih =>
    obtain ⟨k', v'⟩ := entry
    rw [put]
    split
    · rename_i hk
      obtain rfl := eq_of_beq hk
      rw [get?_cons, get?_cons]
      split <;> rfl
    · rename_i hk
      rw [get?_cons, get?_cons, ih]
      split
      · rename_i hkey
        obtain rfl := eq_of_beq hkey
        rw [if_neg fun h => hk (beq_of_eq (eq_of_beq h).symm)]
      · rfl

omit [LawfulBEq κ] in
/-- A key that has the value already keeps its entry. -/
theorem put_of_get? {key : κ} {value : α} {entries : List (κ × α)}
    (h : get? key entries = some value) : put key value entries = entries := by
  induction entries with
  | nil => simp [get?] at h
  | cons entry entries ih =>
    obtain ⟨k, v⟩ := entry
    rw [get?_cons] at h
    rw [put]
    split
    · rename_i hk
      rw [if_pos hk] at h
      rw [Option.some.inj h]
    · rename_i hk
      rw [if_neg hk] at h
      rw [ih h]

/-- No key stands twice among entries put together. -/
theorem nodup_collapse (entries : List (κ × α)) : (keys (collapse entries)).Nodup := by
  induction entries using List.reverseRecOn with
  | nil => exact List.nodup_nil
  | append_singleton entries entry ih =>
    rw [collapse_append_singleton]
    exact nodup_put ih _

theorem mem_of_mem_put {key : κ} {value : α} {entries : List (κ × α)} {entry : κ × α}
    (h : entry ∈ put key value entries) : entry = (key, value) ∨ entry ∈ entries := by
  induction entries with
  | nil => exact .inl (List.mem_singleton.1 h)
  | cons head entries ih =>
    obtain ⟨k, v⟩ := head
    rw [put] at h
    split at h
    · rename_i hk
      obtain rfl := eq_of_beq hk
      rcases List.mem_cons.1 h with rfl | hmem
      · exact .inl rfl
      · exact .inr (List.mem_cons_of_mem _ hmem)
    · rcases List.mem_cons.1 h with rfl | hmem
      · exact .inr (List.mem_cons_self ..)
      · exact (ih hmem).imp_right (List.mem_cons_of_mem _)

/-- Nothing is added by putting entries together. -/
theorem mem_of_mem_collapse {entries : List (κ × α)} {entry : κ × α}
    (h : entry ∈ collapse entries) : entry ∈ entries := by
  induction entries using List.reverseRecOn with
  | nil => exact h
  | append_singleton entries last ih =>
    rw [collapse_append_singleton] at h
    rcases mem_of_mem_put h with rfl | hmem
    · simp
    · exact List.mem_append_left _ (ih hmem)

/-- Entries of keys that are new, and all different, come behind the others. -/
theorem foldl_put {added : List (κ × α)} (hadded : (keys added).Nodup) :
    ∀ {entries : List (κ × α)}, (∀ key ∈ keys added, key ∉ keys entries) →
      added.foldl (fun kept (key, value) => put key value kept) entries = entries ++ added := by
  induction added with
  | nil => exact fun _ => (List.append_nil _).symm
  | cons entry added ih =>
    obtain ⟨k, v⟩ := entry
    obtain ⟨hk, hadded⟩ := List.nodup_cons.1 hadded
    intro entries hnew
    have hnew' : ∀ key ∈ keys added, key ∉ keys (entries ++ [(k, v)]) := by
      intro key hkey hmem
      rw [keys, List.map_append, List.mem_append, List.map_singleton, List.mem_singleton] at hmem
      rcases hmem with hmem | rfl
      · exact hnew key (List.mem_cons_of_mem k hkey) hmem
      · exact hk hkey
    simp only [List.foldl_cons, put_of_not_mem (hnew k List.mem_cons_self)]
    rw [ih hadded hnew', List.append_assoc, List.singleton_append]

/-- Entries of different keys stay as they are. -/
theorem collapse_of_nodup {entries : List (κ × α)} (h : (keys entries).Nodup) :
    collapse entries = entries := foldl_put h fun _ _ => List.not_mem_nil

theorem collapse_collapse (entries : List (κ × α)) :
    collapse (collapse entries) = collapse entries := collapse_of_nodup (nodup_collapse entries)

theorem mem_of_get? {key : κ} {value : α} {entries : List (κ × α)}
    (h : get? key entries = some value) : (key, value) ∈ entries := by
  obtain ⟨⟨k, v⟩, hfound, rfl⟩ := Option.map_eq_some_iff.1 h
  have hk := List.find?_some hfound
  simp only [beq_iff_eq] at hk
  subst hk
  exact List.mem_of_find?_eq_some hfound

theorem get?_eq_none_iff {key : κ} {entries : List (κ × α)} :
    get? key entries = none ↔ key ∉ keys entries := by
  rw [get?, Option.map_eq_none_iff, List.find?_eq_none, keys, List.mem_map]
  constructor
  · rintro h ⟨entry, hentry, rfl⟩
    exact h entry hentry (beq_self_eq_true _)
  · exact fun h entry hentry hkey => h ⟨entry, hentry, eq_of_beq hkey⟩

/-- Entries of different keys may stand in any order. -/
theorem get?_of_perm {entries entries' : List (κ × α)} (h : (keys entries).Nodup)
    (hperm : entries.Perm entries') (key : κ) : get? key entries = get? key entries' := by
  refine congrArg (Option.map Prod.snd) (List.find?_eq_find?_of_perm hperm ?_)
  rintro entry ⟨hentry, hkey⟩ entry' ⟨hentry', hkey'⟩
  exact List.inj_on_of_nodup_map h hentry hentry' ((eq_of_beq hkey).trans (eq_of_beq hkey').symm)

omit [LawfulBEq κ] in
theorem last?_append_singleton (key : κ) (entries : List (κ × α)) (k : κ) (v : α) :
    last? key (entries ++ [(k, v)]) = if k == key then some v else last? key entries := by
  simp [last?]

theorem mem_of_last? {key : κ} {entries : List (κ × α)} {value : α}
    (h : last? key entries = some value) : (key, value) ∈ entries := by
  induction entries using List.reverseRecOn with
  | nil => simp [last?] at h
  | append_singleton entries entry ih =>
    obtain ⟨k, v⟩ := entry
    rw [last?_append_singleton] at h
    split at h
    · rename_i hk
      simp [← eq_of_beq hk, ← Option.some.inj h]
    · exact List.mem_append_left _ (ih h)

omit [LawfulBEq κ] in
theorem last?_cons (key : κ) (k : κ) (v : α) (entries : List (κ × α)) :
    last? key ((k, v) :: entries) = (last? key entries).or (if k == key then some v else none) := by
  induction entries using List.reverseRecOn with
  | nil => simp [last?]
  | append_singleton entries entry ih =>
    obtain ⟨k', v'⟩ := entry
    rw [← List.cons_append, last?_append_singleton, ih, last?_append_singleton]
    split <;> simp

theorem get?_of_mem {key : κ} {value : α} {entries : List (κ × α)} (h : (keys entries).Nodup)
    (hmem : (key, value) ∈ entries) : get? key entries = some value := by
  rcases hget : get? key entries with _ | found
  · exact absurd (List.mem_map_of_mem hmem) (get?_eq_none_iff.1 hget)
  · have heq := List.inj_on_of_nodup_map h (mem_of_get? hget) hmem rfl
    rw [(Prod.mk.inj heq).2]

/-- Of entries of different keys the last one of a key is the first. -/
theorem last?_eq_get? {entries : List (κ × α)} (h : (keys entries).Nodup) (key : κ) :
    last? key entries = get? key entries := by
  induction entries with
  | nil => rfl
  | cons entry entries ih =>
    obtain ⟨k, v⟩ := entry
    rw [keys, List.map_cons, List.nodup_cons] at h
    rw [last?_cons, get?_cons, ih h.2]
    split
    · rename_i hk
      obtain rfl := eq_of_beq hk
      simp [get?_eq_none_iff.2 h.1]
    · simp

theorem last?_put {entries : List (κ × α)} (h : (keys entries).Nodup) (key k : κ) (v : α) :
    last? key (put k v entries) = if k == key then some v else last? key entries := by
  induction entries with
  | nil => simp [put, last?]
  | cons entry entries ih =>
    obtain ⟨k', v'⟩ := entry
    rw [keys, List.map_cons, List.nodup_cons] at h
    rw [put]
    split
    · rename_i hk
      obtain rfl := eq_of_beq hk
      rw [last?_cons, last?_cons]
      split
      · rename_i hkey
        obtain rfl := eq_of_beq hkey
        have hnone : last? k' entries = none := by
          rcases hlast : last? k' entries with _ | w
          · rfl
          · exact absurd (List.mem_map.2 ⟨_, mem_of_last? hlast, rfl⟩) h.1
        simp [hnone]
      · rfl
    · rename_i hk
      rw [last?_cons, last?_cons, ih h.2]
      split
      · simp
      · rfl

/-- Put together, entries give every key its last value. -/
theorem last?_collapse (key : κ) (entries : List (κ × α)) :
    last? key (collapse entries) = last? key entries := by
  induction entries using List.reverseRecOn with
  | nil => rfl
  | append_singleton entries entry ih =>
    obtain ⟨k, v⟩ := entry
    rw [collapse_append_singleton, last?_put (nodup_collapse entries), ih, last?_append_singleton]

/-- Changing each value by its key changes the last value of a key so. -/
theorem last?_mapWithKey (g : κ → α → β) (key : κ) (entries : List (κ × α)) :
    last? key (entries.map fun (k, v) => (k, g k v)) = (last? key entries).map (g key) := by
  induction entries using List.reverseRecOn with
  | nil => rfl
  | append_singleton entries entry ih =>
    obtain ⟨k, v⟩ := entry
    rw [List.map_append, List.map_singleton, last?_append_singleton, last?_append_singleton, ih]
    split
    · rename_i hk
      rw [eq_of_beq hk]
      rfl
    · rfl

end SearchConfig.Entries
