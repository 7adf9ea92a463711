import SearchConfig.Proofs.OrderedEntries
import SearchConfig.Schema.Field

/-!
# Decoding, part by part

What is accepted is made of parts that are accepted: a field of a record holds what stands for its
absence or what an entry of the record is read as (`of_optional`, `of_required`), and so does every
entry of a map (`of_entries`). Changing what a part is decoded to commutes with putting the parts
together (`map_seq`, `seq_map`), and a field is decoded from changed entries as if what it is found
under had been changed (`optional_of_find?`). Entries of one key count only by the last of them
(`find?_collapse`).
-/

namespace SearchConfig

/-- Does the text hold no lone surrogates? -/
def Text.IsScalar (t : Text) : Prop := ∃ cs, t = ofChars cs

theorem Text.loneSurrogatesFrom?_ofChars (position : Nat) (cs : List Char) :
    loneSurrogatesFrom? position (ofChars cs) = none := by
  induction cs generalizing position with
  | nil => rfl
  | cons c cs ih => exact ih (position + 1)

theorem Text.characters_ofChars (cs : List Char) : (ofChars cs).characters = .ok cs := by
  rw [characters, loneSurrogates?, loneSurrogatesFrom?_ofChars]
  simp [ofChars, List.filterMap_map, Function.comp_def, CodePoint.char?]

theorem Text.encode_ofChars (cs : List Char) :
    (ofChars cs).encode = .ok (String.ofList cs).toUTF8 := by
  rw [encode, characters_ofChars]
  rfl

theorem Text.legible_ofChars (cs : List Char) : (ofChars cs).legible = cs := by
  simp [legible, ofChars, List.flatMap_map, CodePoint.char?]

theorem Text.ofChars_injective {cs cs' : List Char} (h : ofChars cs = ofChars cs') : cs = cs' := by
  rw [← legible_ofChars cs, h, legible_ofChars]

namespace Decoded

variable {α β γ : Type}

theorem map_accepted_iff {f : α → β} {x : Decoded α} {b : β} :
    x.map f = accepted b ↔ ∃ a, x = accepted a ∧ f a = b := by
  rcases x with a | problems <;> simp [map]

theorem both_accepted_iff {f : Decoded (α → β)} {x : Decoded α} {b : β} :
    both f x = accepted b ↔ ∃ g a, f = accepted g ∧ x = accepted a ∧ g a = b := by
  rcases f with g | problems <;> rcases x with a | problems' <;> simp [both]

theorem seq_accepted_iff {f : Decoded (α → β)} {x : Decoded α} {b : β} :
    f <*> x = accepted b ↔ ∃ g a, f = accepted g ∧ x = accepted a ∧ g a = b := both_accepted_iff

theorem functorMap_accepted_iff {f : α → β} {x : Decoded α} {b : β} :
    f <$> x = accepted b ↔ ∃ a, x = accepted a ∧ f a = b := map_accepted_iff

theorem under_accepted_iff {step : Step} {x : Decoded α} {a : α} :
    x.under step = accepted a ↔ x = accepted a := by
  rcases x with b | problems <;> simp [under]

theorem all_accepted_iff {xs : List (Decoded α)} {as : List α} :
    all xs = accepted as ↔ xs = as.map accepted := by
  induction xs generalizing as with
  | nil => rcases as with _ | ⟨a, as⟩ <;> simp [all]
  | cons x xs ih =>
    simp only [all, both_accepted_iff, map_accepted_iff, ih]
    rcases as with _ | ⟨a, as⟩
    · simp
    · simp only [List.map_cons, List.cons.injEq]
      constructor
      · rintro ⟨g, as', ⟨a', rfl, rfl⟩, rfl, has⟩
        obtain ⟨rfl, rfl⟩ := List.cons.inj has
        exact ⟨rfl, rfl⟩
      · rintro ⟨rfl, rfl⟩
        exact ⟨_, _, ⟨_, rfl, rfl⟩, rfl, rfl⟩

theorem map_map (f : β → γ) (g : α → β) (x : Decoded α) :
    (x.map g).map f = x.map fun a => f (g a) := by
  rcases x with a | problems <;> rfl

theorem map_under (f : α → β) (step : Step) (x : Decoded α) :
    (x.under step).map f = (x.map f).under step := by
  rcases x with a | problems <;> rfl

/-- What becomes of the whole becomes of it through the first part. -/
theorem map_seq (f : β → γ) (x : Decoded (α → β)) (y : Decoded α) :
    (x <*> y).map f = (x.map fun g a => f (g a)) <*> y := by
  rcases x with g | problems <;> rcases y with a | problems' <;> rfl

/-- A change of the second part is one of how it is taken. -/
theorem seq_map (x : Decoded (β → γ)) (f : α → β) (y : Decoded α) :
    x <*> y.map f = (x.map fun g a => g (f a)) <*> y := by
  rcases x with g | problems <;> rcases y with a | problems' <;> rfl

theorem map_functorMap (f : β → γ) (g : α → β) (x : Decoded α) :
    (g <$> x).map f = (fun a => f (g a)) <$> x := map_map f g x

theorem map_all (f : α → β) (xs : List (Decoded α)) :
    (all xs).map (List.map f) = all (xs.map (map f)) := by
  induction xs with
  | nil => rfl
  | cons x xs ih =>
    have hx : ∀ ys : Decoded (List β), both ((x.map f).map List.cons) ys
        = (x.map fun a => List.cons (f a)) <*> ys := fun ys => by rw [map_map]; rfl
    have hwhole : (all (x :: xs)).map (List.map f)
        = (x.map fun a as => List.map f (a :: as)) <*> all xs := by
      rw [all, ← map_map (fun (g : List α → List α) as => List.map f (g as))]
      exact map_seq (List.map f) (x.map List.cons) (all xs)
    rw [hwhole, List.map_cons, all, hx, ← ih, seq_map, map_map]
    rfl

end Decoded

namespace Schema

variable {α β γ : Type}

theorem mem_of_named? {name : Text} {entries : List (Key × α)} {v : α}
    (h : named? name entries = some v) : ∃ key, (key, v) ∈ entries := by
  obtain ⟨⟨key, w⟩, hmem, heq⟩ := List.mem_map.1 (Entries.mem_of_last? h)
  obtain ⟨-, rfl⟩ := Prod.mk.inj heq
  exact ⟨key, hmem⟩

theorem mem_of_find? {field : FieldName} {entries : List (Key × α)} {found : Text × α}
    (h : find? field entries = some found) : ∃ key, (key, found.2) ∈ entries := by
  unfold find? at h
  split at h
  · rename_i v hv
    obtain rfl := Option.some.inj h
    exact mem_of_named? hv
  · obtain ⟨v, hv, rfl⟩ := Option.map_eq_some_iff.1 h
    exact mem_of_named? hv

section Accepted

variable {P : β → Prop} {field : FieldName} {read : α → Decoded β} {entries : List (Key × α)}
  {b : β}

/-- What holds of whatever an entry is read as holds of a field that is decoded. -/
theorem of_required (hread : ∀ key v, (key, v) ∈ entries → ∀ b, read v = .accepted b → P b)
    (h : required field read entries = .accepted b) : P b := by
  unfold required at h
  split at h
  · rename_i name v hfound
    obtain ⟨key, hmem⟩ := mem_of_find? hfound
    exact hread key v hmem b (Decoded.under_accepted_iff.1 h)
  · cases h

theorem of_optional {absent : β} (habsent : P absent)
    (hread : ∀ key v, (key, v) ∈ entries → ∀ b, read v = .accepted b → P b)
    (h : optional field absent read entries = .accepted b) : P b := by
  unfold optional at h
  split at h
  · rename_i name v hfound
    obtain ⟨key, hmem⟩ := mem_of_find? hfound
    exact hread key v hmem b (Decoded.under_accepted_iff.1 h)
  · cases h
    exact habsent

theorem entry_accepted_iff {key : Key} {v : α} {name : Text} :
    entry read (key, v) = .accepted (name, b)
      ↔ key.name = .accepted name ∧ read v = .accepted b := by
  simp only [entry, Decoded.under_accepted_iff, Decoded.seq_accepted_iff,
    Decoded.functorMap_accepted_iff]
  constructor
  · rintro ⟨g, a, ⟨n, hname, rfl⟩, hread, heq⟩
    obtain ⟨rfl, rfl⟩ := Prod.mk.inj heq
    exact ⟨hname, hread⟩
  · rintro ⟨hname, hread⟩
    exact ⟨_, b, ⟨name, hname, rfl⟩, hread, rfl⟩

/-- What holds of whatever an entry is read as holds of every entry of a map. -/
theorem of_entries {P : Text × β → Prop} {bs : List (Text × β)}
    (hread : ∀ key v, (key, v) ∈ entries → ∀ name b,
      key.name = .accepted name → read v = .accepted b → P (name, b))
    (h : Schema.entries read entries = .accepted bs) :
    (Entries.keys bs).Nodup ∧ ∀ entry ∈ bs, P entry := by
  obtain ⟨as, has, rfl⟩ := Decoded.map_accepted_iff.1 h
  rw [Decoded.all_accepted_iff] at has
  refine ⟨Entries.nodup_collapse as, ?_⟩
  rintro ⟨name, b⟩ hmem
  have hin : (name, b) ∈ as := Entries.mem_of_mem_collapse hmem
  have : Decoded.accepted (name, b) ∈ entries.map (entry read) :=
    has ▸ List.mem_map_of_mem hin
  obtain ⟨⟨key, v⟩, hentry, heq⟩ := List.mem_map.1 this
  obtain ⟨hname, hv⟩ := entry_accepted_iff.1 heq
  exact hread key v hentry name b hname hv

end Accepted

end Schema

section Json

open Json Schema

/-- The entries of an object as a decoder sees them. -/
def Json.keyed (entries : List (List Char × Json)) : List (Key × Json) :=
  entries.map fun (name, v) => (key name, v)

/-- A record is decoded from an object. -/
theorem object_of_record {β : Type} {read : List (Key × Json) → Decoded β} {b : β}
    (h : record read v = .accepted b) :
    ∃ entries, v = .object entries ∧ read (keyed entries) = .accepted b := by
  rcases v with _ | _ | _ | _ | _ | _ | entries <;> try cases h
  exact ⟨entries, rfl, h⟩

/-- Keys of different spellings are different. -/
theorem Json.some_ofChars_beq (a b : List Char) :
    (some (Text.ofChars a) == some (Text.ofChars b)) = (a == b) := by
  rw [Bool.eq_iff_iff, beq_iff_eq, beq_iff_eq, Option.some.injEq]
  exact ⟨Text.ofChars_injective, congrArg _⟩

theorem Json.collapse_keyed (entries : List (List Char × Json)) :
    Entries.collapse (keyed entries) = keyed (Entries.collapse entries) := by
  have hkeys : ∀ a b : List Char, (key a == key b) = (a == b) := fun a b =>
    (Bool.true_and _).trans (some_ofChars_beq a b)
  exact (Entries.map_collapse hkeys id entries).symm

variable {β γ : Type} {field : FieldName} {entries : List (List Char × Json)}

theorem named?_map (g : Text → Json → Json) (name : Text) (entries : List (List Char × Json)) :
    named? name (keyed (entries.map fun (k, v) => (k, g (.ofChars k) v)))
      = (named? name (keyed entries)).map (g name) := by
  have h := Entries.last?_mapWithKey (fun k : Option Text => g (k.getD [])) (some name)
    ((keyed entries).map fun (key, v) => (key.text?, v))
  simpa [named?, keyed, key, Function.comp_def] using h

/-- Changing the values by their keys changes what a field is found as. -/
theorem find?_map (g : Text → Json → Json) (field : FieldName)
    (entries : List (List Char × Json)) :
    find? field (keyed (entries.map fun (k, v) => (k, g (.ofChars k) v)))
      = (find? field (keyed entries)).map fun (name, v) => (name, g name v) := by
  unfold find?
  rw [named?_map, named?_map]
  rcases named? field.outer (keyed entries) with _ | v
  · rcases named? field.inner (keyed entries) with _ | v <;> rfl
  · rfl

/-- Only the last entry of a key counts. -/
theorem named?_collapse (name : Text) (entries : List (List Char × Json)) :
    named? name (keyed (Entries.collapse entries)) = named? name (keyed entries) := by
  have hnamed : ∀ es : List (List Char × Json), named? name (keyed es)
      = Entries.last? (some name) (es.map (Prod.map (fun k => some (Text.ofChars k)) id)) := by
    intro es
    rw [named?, keyed, List.map_map]
    rfl
  rw [hnamed, hnamed, Entries.map_collapse Json.some_ofChars_beq, Entries.last?_collapse]

theorem find?_collapse (field : FieldName) (entries : List (List Char × Json)) :
    find? field (keyed (Entries.collapse entries)) = find? field (keyed entries) := by
  rw [find?, named?_collapse, named?_collapse, find?]

section Changed

variable {entries entries' : List (Key × Json)} {f : Json → Json}

/-- A field is decoded from changed entries as if what it is found under had been changed. -/
theorem optional_of_find? (h : find? field entries' = (find? field entries).map (Prod.map id f))
    (absent : β) (read : Json → Decoded β) :
    optional field absent read entries' = optional field absent (fun v => read (f v)) entries := by
  unfold Schema.optional
  rw [h]
  rcases find? field entries with _ | ⟨name, v⟩ <;> rfl

theorem required_of_find? (h : find? field entries' = (find? field entries).map (Prod.map id f))
    (read : Json → Decoded β) :
    required field read entries' = required field (fun v => read (f v)) entries := by
  unfold required
  rw [h]
  rcases find? field entries with _ | ⟨name, v⟩ <;> rfl

theorem optional_map (g : β → γ) (absent : β) (read : Json → Decoded β) :
    optional field (g absent) (fun v => (read v).map g) entries
      = (optional field absent read entries).map g := by
  unfold Schema.optional
  rcases find? field entries with _ | ⟨name, v⟩
  · rfl
  · exact (Decoded.map_under g _ (read v)).symm

end Changed

theorem entries_mapValues (read : Json → Decoded β) (f : Json → Json)
    (entries : List (List Char × Json)) :
    Schema.entries read (keyed (Entries.mapValues f entries))
      = Schema.entries (fun v => read (f v)) (keyed entries) := by
  simp only [Schema.entries, keyed, Entries.mapValues, List.map_map]
  rfl

theorem entries_map (g : β → γ) (read : Json → Decoded β) (entries : List (Key × Json)) :
    Schema.entries (fun v => (read v).map g) entries
      = (Schema.entries read entries).map (Entries.mapValues g) := by
  have hentry : ∀ e : Key × Json, entry (fun v => (read v).map g) e
      = (entry read e).map fun (name, b) => (name, g b) := by
    rintro ⟨k, v⟩
    rw [entry, entry, Decoded.map_under, Decoded.map_seq, Decoded.seq_map, Decoded.map_functorMap,
      Decoded.map_functorMap]
  have hall : Decoded.all (entries.map (entry fun v => (read v).map g))
      = (Decoded.all (entries.map (entry read))).map (Entries.mapValues g) := by
    have hmap := Decoded.map_all (fun (name, b) => (name, g b)) (entries.map (entry read))
    rw [List.map_map] at hmap
    rw [List.map_congr_left fun e _ => hentry e]
    exact hmap.symm
  rw [Schema.entries, hall, Schema.entries, Decoded.map_map, Decoded.map_map]
  simp only [Entries.mapValues_collapse]

end Json

end SearchConfig
