import SearchConfig.Proofs.Redacted

/-!
# Objects without repeated keys

A value has distinct keys if no object in it, at any depth, repeats a key. Putting the entries of one
key together gives such a value (`hasDistinctKeys_collapse`).
-/

namespace SearchConfig.Json

mutual

/-- Does no object in the value repeat a key? -/
def HasDistinctKeys : Json → Prop
  | array items => ItemsHaveDistinctKeys items
  | object entries => (Entries.keys entries).Nodup ∧ EntriesHaveDistinctKeys entries
  | _ => True

def ItemsHaveDistinctKeys : List Json → Prop
  | [] => True
  | item :: items => HasDistinctKeys item ∧ ItemsHaveDistinctKeys items

def EntriesHaveDistinctKeys : List (List Char × Json) → Prop
  | [] => True
  | (_, value) :: entries => HasDistinctKeys value ∧ EntriesHaveDistinctKeys entries

end

theorem entriesHaveDistinctKeys_iff (entries : List (List Char × Json)) :
    EntriesHaveDistinctKeys entries ↔ ∀ entry ∈ entries, entry.2.HasDistinctKeys := by
  induction entries with
  | nil => simp [EntriesHaveDistinctKeys]
  | cons entry entries ih => simp [EntriesHaveDistinctKeys, ih]

mutual

theorem hasDistinctKeys_collapse : ∀ v : Json, v.collapse.HasDistinctKeys
  | array items => by
    rw [collapse, HasDistinctKeys]
    exact itemsHaveDistinctKeys_collapse items
  | object entries => by
    rw [collapse, HasDistinctKeys]
    refine ⟨Entries.nodup_collapse _, ?_⟩
    have hentries := entriesHaveDistinctKeys_collapse entries
    rw [entriesHaveDistinctKeys_iff] at hentries ⊢
    exact fun entry hentry => hentries entry (Entries.mem_of_mem_collapse hentry)
  | null => trivial
  | bool _ => trivial
  | int _ => trivial
  | float _ => trivial
  | string _ => trivial

theorem itemsHaveDistinctKeys_collapse :
    ∀ items : List Json, ItemsHaveDistinctKeys (collapseItems items)
  | [] => trivial
  | item :: items => ⟨hasDistinctKeys_collapse item, itemsHaveDistinctKeys_collapse items⟩

theorem entriesHaveDistinctKeys_collapse :
    ∀ entries : List (List Char × Json), EntriesHaveDistinctKeys (collapseEntries entries)
  | [] => trivial
  | (_, value) :: entries =>
    ⟨hasDistinctKeys_collapse value, entriesHaveDistinctKeys_collapse entries⟩

end

end SearchConfig.Json
