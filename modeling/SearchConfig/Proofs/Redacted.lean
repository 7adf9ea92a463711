import SearchConfig.Proofs.Decoding
import SearchConfig.Proofs.Masking

/-!
# Redacted values

A value is redacted by putting the empty object in the place of every secret in its repositories.
Decoding a redacted value gives the veiled configuration, or the same problems
(`Config.decode_withoutSecrets`), and keys that are repeated make no difference
(`Config.decode_collapse`). So two contents that hold the same but for their secrets are decoded
alike (`Config.veiled_ofBytes`).
-/

namespace SearchConfig

/-- Is a name one of the two of the field? -/
def FieldName.Names (field : FieldName) (name : Text) : Prop :=
  name = field.outer ∨ name = field.inner

instance (field : FieldName) (name : Text) : Decidable (field.Names name) :=
  inferInstanceAs (Decidable (_ ∨ _))

namespace Json

/-- The entries with the values under the names of a field changed. -/
def changed (field : FieldName) (f : Json → Json) (entries : List (List Char × Json)) :
    List (List Char × Json) :=
  entries.map fun (k, v) => (k, if field.Names (.ofChars k) then f v else v)

/-- Changes the values under the names of a field. -/
def inField (field : FieldName) (f : Json → Json) : Json → Json
  | object entries => object (changed field f entries)
  | v => v

/-- Changes the values of all entries. -/
def inEntries (f : Json → Json) : Json → Json
  | object entries => object (Entries.mapValues f entries)
  | v => v

/-- The empty object in the place of every value but null. -/
def redacted : Json → Json
  | null => null
  | _ => Secret.masked

/-- The configuration with the secrets of its repositories redacted. -/
def withoutSecrets : Json → Json :=
  inField ConfigOf.reposField (inEntries (inField RepositoryOf.vcsConfigField redacted))

/-- Are two values the same but for the secrets, where both of them have one? -/
def SameButSecrets (v w : Json) : Prop := v.collapse.withoutSecrets = w.collapse.withoutSecrets

end Json

open Json Schema

section Fields

variable {β : Type} {field other : FieldName} {f : Json → Json}
  {entries : List (List Char × Json)}

theorem names_of_find? {name : Text} {v : Json} {entries : List (Key × Json)}
    (h : find? field entries = some (name, v)) : field.Names name := by
  unfold find? at h
  split at h
  · exact .inl (Prod.mk.inj (Option.some.inj h)).1.symm
  · obtain ⟨w, -, hw⟩ := Option.map_eq_some_iff.1 h
    exact .inr (Prod.mk.inj hw).1.symm

theorem find?_changed : find? field (keyed (changed field f entries))
    = (find? field (keyed entries)).map (Prod.map id f) := by
  rw [changed, find?_map fun name v => if field.Names name then f v else v]
  rcases hfound : find? field (keyed entries) with _ | ⟨name, v⟩
  · rfl
  · simp [names_of_find? hfound]

/-- Fields of other names are found as before. -/
theorem find?_changed_of_ne (houter : ¬ field.Names other.outer)
    (hinner : ¬ field.Names other.inner) :
    find? other (keyed (changed field f entries)) = find? other (keyed entries) := by
  rw [changed, find?_map fun name v => if field.Names name then f v else v]
  rcases hfound : find? other (keyed entries) with _ | ⟨name, v⟩
  · rfl
  · have hname : ¬ field.Names name := by
      rcases names_of_find? hfound with rfl | rfl
      · exact houter
      · exact hinner
    simp [hname]

theorem optional_changed_of_ne (houter : ¬ field.Names other.outer)
    (hinner : ¬ field.Names other.inner) (absent : β) (read : Json → Decoded β) :
    Schema.optional other absent read (keyed (changed field f entries))
      = Schema.optional other absent read (keyed entries) := by
  unfold Schema.optional
  rw [find?_changed_of_ne houter hinner]

theorem required_changed_of_ne (houter : ¬ field.Names other.outer)
    (hinner : ¬ field.Names other.inner) (read : Json → Decoded β) :
    required other read (keyed (changed field f entries)) = required other read (keyed entries) := by
  unfold required
  rw [find?_changed_of_ne houter hinner]

end Fields

namespace Json

theorem collapseEntries_eq (entries : List (List Char × Json)) :
    collapseEntries entries = Entries.mapValues collapse entries := by
  induction entries with
  | nil => rfl
  | cons entry entries ih => rw [collapseEntries, ih, Entries.mapValues, Entries.mapValues,
      List.map_cons]

mutual

theorem collapse_collapse : ∀ v : Json, v.collapse.collapse = v.collapse
  | array items => by
    rw [collapse, collapse, collapseItems_collapseItems items]
  | object entries => by
    rw [collapse, collapse, collapseEntries_eq (Entries.collapse _), Entries.mapValues_collapse,
      ← collapseEntries_eq, collapseEntries_collapseEntries entries, Entries.collapse_collapse]
  | null => rfl
  | bool _ => rfl
  | int _ => rfl
  | float _ => rfl
  | string _ => rfl

theorem collapseItems_collapseItems :
    ∀ items : List Json, collapseItems (collapseItems items) = collapseItems items
  | [] => rfl
  | item :: items => by
    rw [collapseItems, collapseItems, collapse_collapse item, collapseItems_collapseItems items]

theorem collapseEntries_collapseEntries :
    ∀ entries : List (List Char × Json),
      collapseEntries (collapseEntries entries) = collapseEntries entries
  | [] => rfl
  | (k, v) :: entries => by
    rw [collapseEntries, collapseEntries, collapse_collapse v,
      collapseEntries_collapseEntries entries]

end

end Json

section Collapsed

variable {β : Type} {field : FieldName} {entries : List (List Char × Json)}

theorem find?_collapsed (field : FieldName) (entries : List (List Char × Json)) :
    find? field (keyed (Entries.collapse (collapseEntries entries)))
      = (find? field (keyed entries)).map (Prod.map id collapse) := by
  rw [find?_collapse, collapseEntries_eq, Entries.mapValues, find?_map fun _ => collapse]
  rfl

theorem optional_collapsed (absent : β) (read : Json → Decoded β) :
    Schema.optional field absent read (keyed (Entries.collapse (collapseEntries entries)))
      = Schema.optional field absent (fun v => read v.collapse) (keyed entries) :=
  optional_of_find? (find?_collapsed field entries) absent read

theorem required_collapsed (read : Json → Decoded β) :
    required field read (keyed (Entries.collapse (collapseEntries entries)))
      = required field (fun v => read v.collapse) (keyed entries) :=
  required_of_find? (find?_collapsed field entries) read

theorem text_collapse (v : Json) : text v.collapse = text v := by cases v <;> rfl

theorem integer_collapse (v : Json) : integer v.collapse = integer v := by cases v <;> rfl

theorem truth_collapse (v : Json) : truth v.collapse = truth v := by cases v <;> rfl

theorem strictTruth_collapse (v : Json) : strictTruth v.collapse = strictTruth v := by
  cases v <;> rfl

theorem secret_collapse (v : Json) : secret v.collapse = secret v := by
  have hcapture : Secret.ofJson v.collapse = Secret.ofJson v := by
    rw [Secret.ofJson, collapse_collapse, Secret.ofJson]
  rcases v with _ | _ | _ | _ | _ | _ | _ <;> try rfl
  all_goals exact congrArg Decoded.accepted hcapture

theorem nullable_collapse {read : Json → Decoded β} (h : ∀ v : Json, read v.collapse = read v)
    (v : Json) : nullable read v.collapse = nullable read v := by
  have hread := h v
  rcases v with _ | _ | _ | _ | _ | _ | _ <;> try rfl
  all_goals exact congrArg (Decoded.map some) hread

theorem record_object (read : List (Key × Json) → Decoded β) (entries : List (List Char × Json)) :
    record read (object entries) = read (keyed entries) := rfl

theorem UrlPattern.decode_collapse (v : Json) :
    UrlPattern.decode v.collapse = UrlPattern.decode v := by
  rcases v with _ | _ | _ | _ | _ | _ | entries <;> try rfl
  simp only [collapse, UrlPattern.decode, record_object, optional_collapsed, text_collapse]

theorem Repository.decode_collapse (v : Json) :
    Repository.decode v.collapse = Repository.decode v := by
  rcases v with _ | _ | _ | _ | _ | _ | entries <;> try rfl
  simp only [collapse, Repository.decode, RepositoryOf.decode, record_object, required_collapsed,
    optional_collapsed, text_collapse, integer_collapse, truth_collapse,
    nullable_collapse secret_collapse, nullable_collapse UrlPattern.decode_collapse,
    nullable_collapse strictTruth_collapse]

theorem nullableMap_object (read : Json → Decoded β) (entries : List (List Char × Json)) :
    nullableMap read (object entries)
      = Schema.entries read (keyed (Entries.collapse entries)) := by
  rw [← collapse_keyed]
  rfl

theorem nullableMap_collapse {read : Json → Decoded β} (h : ∀ v : Json, read v.collapse = read v)
    (v : Json) : nullableMap read v.collapse = nullableMap read v := by
  rcases v with _ | _ | _ | _ | _ | _ | entries <;> try rfl
  rw [collapse, nullableMap_object, nullableMap_object, Entries.collapse_collapse,
    collapseEntries_eq, ← Entries.mapValues_collapse, entries_mapValues]
  simp only [h]

/-- Keys that are repeated make no difference to what is decoded. -/
theorem Config.decode_collapse (v : Json) : Config.decode v.collapse = Config.decode v := by
  rcases v with _ | _ | _ | _ | _ | _ | entries <;> try rfl
  simp only [collapse, Config.decode, ConfigOf.decode, record_object, optional_collapsed,
    text_collapse, integer_collapse, nullableMap_collapse Repository.decode_collapse]

end Collapsed

section Redacted

theorem nullable_secret_redacted (v : Json) : nullable secret v.redacted
    = (nullable secret v).map (Option.map fun _ => Secret.veil) := by
  rcases v with _ | _ | _ | _ | _ | _ | _ <;> rfl

/-- A repository whose secret is redacted is decoded as the veiled one. -/
theorem Repository.decode_redacted (v : Json) :
    Repository.decode (inField RepositoryOf.vcsConfigField redacted v)
      = (Repository.decode v).map Repository.veiled := by
  rcases v with _ | _ | _ | _ | _ | _ | entries <;> try rfl
  have hsecret : Schema.optional RepositoryOf.vcsConfigField none (nullable secret)
      (keyed (changed RepositoryOf.vcsConfigField redacted entries))
      = (Schema.optional RepositoryOf.vcsConfigField none (nullable secret) (keyed entries)).map
        (Option.map fun _ => Secret.veil) := by
    rw [optional_of_find? find?_changed, ← optional_map]
    simp only [nullable_secret_redacted]
    rfl
  simp only [inField, Repository.decode, RepositoryOf.decode, record_object]
  rw [hsecret]
  simp (disch := decide) only [required_changed_of_ne, optional_changed_of_ne]
  simp only [Decoded.map_seq, Decoded.seq_map, Decoded.map_functorMap]
  rfl

theorem nullableMap_inEntries {β : Type} (read : Json → Decoded β) (f : Json → Json) (v : Json) :
    nullableMap read (inEntries f v) = nullableMap (fun v => read (f v)) v := by
  rcases v with _ | _ | _ | _ | _ | _ | entries <;> try rfl
  rw [inEntries, nullableMap_object, ← Entries.mapValues_collapse, entries_mapValues,
    nullableMap_object]

theorem nullableMap_map {β γ : Type} (g : β → γ) (read : Json → Decoded β) (v : Json) :
    nullableMap (fun v => (read v).map g) v
      = (nullableMap read v).map (Entries.mapValues g) := by
  rcases v with _ | _ | _ | _ | _ | _ | entries <;> try rfl
  rw [nullableMap_object, nullableMap_object, entries_map]

/-- A configuration whose secrets are redacted is decoded as the veiled one. -/
theorem Config.decode_withoutSecrets (v : Json) :
    Config.decode v.withoutSecrets = (Config.decode v).map Config.veiled := by
  rcases v with _ | _ | _ | _ | _ | _ | entries <;> try rfl
  have hrepos : Schema.optional ConfigOf.reposField [] (nullableMap Repository.decode)
      (keyed (changed ConfigOf.reposField
        (inEntries (inField RepositoryOf.vcsConfigField redacted)) entries))
      = (Schema.optional ConfigOf.reposField [] (nullableMap Repository.decode)
        (keyed entries)).map (Entries.mapValues Repository.veiled) := by
    rw [optional_of_find? find?_changed, ← optional_map]
    simp only [nullableMap_inEntries, Repository.decode_redacted, nullableMap_map]
    rfl
  simp only [withoutSecrets, inField, Config.decode, ConfigOf.decode, record_object]
  rw [hrepos]
  simp (disch := decide) only [optional_changed_of_ne]
  simp only [Decoded.map_seq, Decoded.seq_map, Decoded.map_functorMap]
  rfl

/-- Contents that are the same but for their secrets are decoded alike up to masking. -/
theorem Config.veiled_ofBytes {a b : ByteArray} {v w : Json} (hv : ofBytes? a = some v)
    (hw : ofBytes? b = some w) (h : SameButSecrets v w) :
    (Decoded.ofBytes Config.decode a).map Config.veiled
      = (Decoded.ofBytes Config.decode b).map Config.veiled := by
  rw [Decoded.ofBytes, hv, Decoded.ofBytes, hw]
  simp only []
  rw [← Config.decode_collapse v, ← Config.decode_withoutSecrets, h, Config.decode_withoutSecrets,
    Config.decode_collapse]

end Redacted

end SearchConfig
