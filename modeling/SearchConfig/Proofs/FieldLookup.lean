import SearchConfig.Model.Config
import SearchConfig.Proofs.Redacted

/-!
# Looking up fields

A name is found among the entries of an object if one of them has it (`named?_eq_none_iff`), and of
entries with different keys their order does not matter (`named?_perm`). What the values of a map are
read as decides what the map is decoded to (`nullableMap_congr`).
-/

namespace SearchConfig

/-- Have none of the entries a name of the field? -/
def FieldName.IsAbsent (field : FieldName) (entries : List (List Char × Json)) : Prop :=
  ∀ entry ∈ entries, ¬ field.Names (.ofChars entry.1)

instance (field : FieldName) (entries : List (List Char × Json)) :
    Decidable (field.IsAbsent entries) :=
  inferInstanceAs (Decidable (∀ entry ∈ entries, _))

open Json Schema

variable {field : FieldName} {name : Text} {entries entries' : List (List Char × Json)}

theorem named?_append_singleton (name : Text) (entries : List (List Char × Json)) (key : List Char)
    (v : Json) : named? name (keyed (entries ++ [(key, v)]))
      = if .ofChars key = name then some v else named? name (keyed entries) := by
  simp [named?, keyed, Json.key, Entries.last?]

theorem named?_append (name : Text) (entries entries' : List (List Char × Json)) :
    named? name (keyed (entries ++ entries'))
      = (named? name (keyed entries')).or (named? name (keyed entries)) := by
  induction entries' using List.reverseRecOn with
  | nil => rw [List.append_nil]; rfl
  | append_singleton entries' entry ih =>
    obtain ⟨key, v⟩ := entry
    rw [← List.append_assoc, named?_append_singleton, named?_append_singleton, ih]
    split <;> rfl

theorem named?_cons (name : Text) (key : List Char) (v : Json)
    (entries : List (List Char × Json)) :
    named? name (keyed ((key, v) :: entries)) = (named? name (keyed entries)).or
      (if .ofChars key = name then some v else none) := by
  rw [← List.singleton_append, named?_append, ← List.nil_append [(key, v)],
    named?_append_singleton]
  rfl

theorem named?_eq_none_iff :
    named? name (keyed entries) = none ↔ ∀ entry ∈ entries, .ofChars entry.1 ≠ name := by
  induction entries with
  | nil => simp [named?, keyed, Entries.last?]
  | cons entry entries ih =>
    obtain ⟨key, v⟩ := entry
    rw [named?_cons, Option.or_eq_none_iff, ih, List.forall_mem_cons, and_comm]
    simp

theorem isAbsent_iff : field.IsAbsent entries ↔ find? field (keyed entries) = none := by
  have hnone : find? field (keyed entries) = none
      ↔ named? field.outer (keyed entries) = none ∧ named? field.inner (keyed entries) = none := by
    unfold find?
    rcases named? field.outer (keyed entries) <;> simp
  rw [hnone, named?_eq_none_iff, named?_eq_none_iff]
  simp only [FieldName.IsAbsent, FieldName.Names, not_or, ← forall_and]

theorem rel_or {r : Json → Json → Prop} {x x' y y' : Option Json} (h : Option.Rel r x y)
    (h' : Option.Rel r x' y') : Option.Rel r (x.or x') (y.or y') := by
  cases h with
  | none => exact h'
  | some h => exact .some h

/-- If values under equal names are related, so is what a field is found as. -/
theorem find?_rel (r : Text → Json → Json → Prop) (h : ∀ name, field.Names name →
      Option.Rel (r name) (named? name (keyed entries)) (named? name (keyed entries'))) :
    Option.Rel (fun x y => field.Names x.1 ∧ y.1 = x.1 ∧ r x.1 x.2 y.2)
      (find? field (keyed entries)) (find? field (keyed entries')) := by
  have houter := h _ (.inl rfl)
  have hinner := h _ (.inr rfl)
  unfold find?
  generalize named? field.outer (keyed entries) = x at houter ⊢
  generalize named? field.outer (keyed entries') = y at houter ⊢
  cases houter with
  | some houter => exact .some ⟨.inl rfl, rfl, houter⟩
  | none =>
    generalize named? field.inner (keyed entries) = x at hinner ⊢
    generalize named? field.inner (keyed entries') = y at hinner ⊢
    cases hinner with
    | some hinner => exact .some ⟨.inr rfl, rfl, hinner⟩
    | none => exact .none

/-- Among entries with different keys each one is found under its name. -/
theorem named?_eq_some_iff (h : (Entries.keys entries).Nodup) {v : Json} :
    named? name (keyed entries) = some v ↔ ∃ key, .ofChars key = name ∧ (key, v) ∈ entries := by
  induction entries with
  | nil => simp [named?, keyed, Entries.last?]
  | cons entry entries ih =>
    obtain ⟨key, w⟩ := entry
    rw [Entries.keys, List.map_cons, List.nodup_cons] at h
    rw [named?_cons, Option.or_eq_some_iff, ih h.2, named?_eq_none_iff]
    simp only [List.mem_cons, Prod.mk.injEq, Option.ite_none_right_eq_some, Option.some.injEq]
    constructor
    · rintro (⟨k, hk, hmem⟩ | ⟨-, hk, rfl⟩)
      · exact ⟨k, hk, .inr hmem⟩
      · exact ⟨key, hk, .inl ⟨rfl, rfl⟩⟩
    · rintro ⟨k, rfl, ⟨rfl, rfl⟩ | hmem⟩
      · refine .inr ⟨fun entry hentry heq => h.1 ?_, rfl, rfl⟩
        exact List.mem_map.2 ⟨entry, hentry, Text.ofChars_injective heq⟩
      · exact .inl ⟨k, rfl, hmem⟩

theorem named?_perm (h : (Entries.keys entries).Nodup) (hperm : entries.Perm entries')
    (name : Text) : named? name (keyed entries') = named? name (keyed entries) := by
  have h' : (Entries.keys entries').Nodup := (hperm.map Prod.fst).nodup_iff.1 h
  ext v
  simp only [named?_eq_some_iff h, named?_eq_some_iff h', hperm.mem_iff]

section Map

variable {β : Type} {read : Json → Decoded β}

/-- What the values are read as decides what the entries of a map are decoded to. -/
theorem entries_congr (h : Entries.mapValues read entries' = Entries.mapValues read entries) :
    Schema.entries read (keyed entries') = Schema.entries read (keyed entries) := by
  have hmap : ∀ es : List (List Char × Json), (keyed es).map (entry read)
      = (Entries.mapValues read es).map fun (name, x) =>
        (Prod.mk <$> ((key name).name.under (.key "[key]")) <*> x).under (key name).step := by
    intro es
    rw [keyed, Entries.mapValues, List.map_map, List.map_map]
    rfl
  rw [Schema.entries, Schema.entries, hmap, hmap, h]

theorem nullableMap_congr (h : Entries.mapValues read entries' = Entries.mapValues read entries) :
    nullableMap read (object entries') = nullableMap read (object entries) := by
  rw [nullableMap_object, nullableMap_object]
  refine entries_congr ?_
  rw [Entries.mapValues_collapse, h, Entries.mapValues_collapse]

end Map

end SearchConfig
