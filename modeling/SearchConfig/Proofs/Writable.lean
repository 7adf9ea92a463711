import SearchConfig.Proofs.Decoding
import SearchConfig.Model.Config
import SearchConfig.Proofs.ReadIntegers

/-!
# What is decoded can be written

The texts of a configuration decoded from a file hold no lone surrogates, its integers are within
the limit and its names are distinct (`Config.isWritable_of_decode`), and the same goes for a
repository, a pattern and a map of repositories decoded alone.
-/

namespace SearchConfig

section Decoded

open Json Schema

variable {v : Json} {entries : List (List Char × Json)}

theorem Json.of_mem_keyed {p : Json → Prop} (h : Each p (object entries)) {k : Key}
    (hmem : (k, v) ∈ keyed entries) : Each p v ∧ ∃ cs, k.name = .accepted (.ofChars cs) := by
  obtain ⟨⟨name, w⟩, hentry, heq⟩ := List.mem_map.1 hmem
  obtain ⟨rfl, rfl⟩ := Prod.mk.inj heq
  rw [Each, eachEntry_iff] at h
  exact ⟨h _ hentry, name, rfl⟩

theorem isScalar_of_text {t : Text} (h : text v = .accepted t) : t.IsScalar := by
  rcases v with _ | _ | _ | _ | s | _ | _ <;> cases h
  · exact ⟨[], rfl⟩
  · exact ⟨s, rfl⟩

theorem isWritable_of_integer (hv : Each WithinLimit v) {n : Int} (h : integer v = .accepted n) :
    Digits.isWritable n = true := by
  rcases v with _ | _ | m | _ | _ | _ | _ <;> cases h
  · rfl
  · exact hv

theorem of_nullable {β : Type} {read : Json → Decoded β} {o : Option β}
    (h : nullable read v = .accepted o) : ∀ b ∈ o, read v = .accepted b := by
  rintro b hb
  unfold nullable at h
  split at h
  · cases h
    cases hb
  · obtain ⟨a, ha, rfl⟩ := Decoded.map_accepted_iff.1 h
    obtain rfl := Option.some.inj hb
    exact ha

end Decoded

/-- Can the templates be written? -/
structure UrlPattern.IsWritable (p : UrlPattern) : Prop where
  baseUrl : p.baseUrl.IsScalar
  anchor : p.anchor.IsScalar

/-- Can the texts and numbers of a repository be written? -/
structure Repository.IsWritable (r : Repository) : Prop where
  url : r.url.IsScalar
  msBetweenPoll : Digits.isWritable r.msBetweenPoll = true
  vcs : r.vcs.IsScalar
  urlPattern : ∀ p ∈ r.urlPattern, p.IsWritable

/-- Can a map be written, with each repository under a name of its own? -/
structure Config.AreWritable (repos : List (Text × Repository)) : Prop where
  distinct : (Entries.keys repos).Nodup
  each : ∀ entry ∈ repos, entry.1.IsScalar ∧ entry.2.IsWritable

/-- Can the texts, numbers and repositories of a configuration be written? -/
structure Config.IsWritable (c : Config) : Prop where
  dbPath : c.dbPath.IsScalar
  title : c.title.IsScalar
  repos : Config.AreWritable c.repos
  maxConcurrentIndexers : Digits.isWritable c.maxConcurrentIndexers = true
  healthCheckUri : c.healthCheckUri.IsScalar

section Writable

open Json Schema Decoded

variable {v : Json} {field : FieldName} {entries : List (List Char × Json)}

theorem isScalar_of_optional {t : Text}
    (h : optional field [] text (keyed entries) = .accepted t) : t.IsScalar :=
  of_optional ⟨[], rfl⟩ (fun _ _ _ _ => isScalar_of_text) h

theorem isWritable_of_optional (hentries : Each WithinLimit (object entries)) {n : Int}
    (h : optional field 0 integer (keyed entries) = .accepted n) : Digits.isWritable n = true :=
  of_optional (P := fun n => Digits.isWritable n = true) rfl
    (fun _ _ hmem _ => isWritable_of_integer (of_mem_keyed hentries hmem).1) h

theorem UrlPattern.isWritable_of_decode {p : UrlPattern} (h : UrlPattern.decode v = .accepted p) :
    p.IsWritable := by
  obtain ⟨entries, rfl, hentries⟩ := object_of_record h
  simp only [seq_accepted_iff, functorMap_accepted_iff] at hentries
  obtain ⟨_, anchor, ⟨baseUrl, hbaseUrl, rfl⟩, hanchor, rfl⟩ := hentries
  exact ⟨isScalar_of_optional hbaseUrl, isScalar_of_optional hanchor⟩

theorem Repository.isWritable_of_decode (hv : Each WithinLimit v) {r : Repository}
    (h : Repository.decode v = .accepted r) : r.IsWritable := by
  obtain ⟨entries, rfl, hentries⟩ := object_of_record h
  simp only [seq_accepted_iff, functorMap_accepted_iff] at hentries
  obtain ⟨_, _, ⟨_, _, ⟨_, _, ⟨_, urlPattern, ⟨_, _, ⟨_, vcs, ⟨_, ms, ⟨url, hurl, rfl⟩, hms, rfl⟩,
    hvcs, rfl⟩, -, rfl⟩, hpattern, rfl⟩, -, rfl⟩, -, rfl⟩, -, rfl⟩ := hentries
  have hscalar : url.IsScalar := of_required (fun _ _ _ _ => isScalar_of_text) hurl
  have hpatterns : ∀ p ∈ urlPattern, p.IsWritable := by
    refine of_optional (P := fun o => ∀ p ∈ o, UrlPattern.IsWritable p) (by simp) ?_ hpattern
    exact fun _ _ _ _ hread p hp => UrlPattern.isWritable_of_decode (of_nullable hread p hp)
  exact ⟨hscalar, isWritable_of_optional hv hms, isScalar_of_optional hvcs, hpatterns⟩

theorem Config.areWritable_of_entries (hentries : Each WithinLimit (object entries))
    {repos : List (Text × Repository)}
    (h : Schema.entries Repository.decode (keyed entries) = .accepted repos) :
    Config.AreWritable repos := by
  obtain ⟨hdistinct, heach⟩ := of_entries
    (P := fun entry => entry.1.IsScalar ∧ entry.2.IsWritable) (by
      intro k w hmem name r hname hread
      obtain ⟨hw, cs, hcs⟩ := of_mem_keyed hentries hmem
      rw [hname] at hcs
      cases hcs
      exact ⟨⟨cs, rfl⟩, Repository.isWritable_of_decode hw hread⟩) h
  exact ⟨hdistinct, heach⟩

theorem Config.areWritable_of_decodeRepos (hv : Each WithinLimit v)
    {repos : List (Text × Repository)} (h : Config.decodeRepos v = .accepted repos) :
    Config.AreWritable repos := by
  rcases v with _ | _ | _ | _ | _ | _ | entries <;> try cases h
  exact areWritable_of_entries hv h

theorem Config.areWritable_nil : Config.AreWritable [] where
  distinct := List.nodup_nil
  each := by simp

theorem Config.areWritable_of_nullableMap (hv : Each WithinLimit v)
    {repos : List (Text × Repository)}
    (h : nullableMap Repository.decode v = .accepted repos) : Config.AreWritable repos := by
  rcases v with _ | _ | _ | _ | _ | _ | entries <;> try cases h
  · exact areWritable_nil
  · rw [Each, eachEntry_iff] at hv
    have hcollapse : Each WithinLimit (object (Entries.collapse entries)) :=
      each_object fun entry hmem => hv entry (Entries.mem_of_mem_collapse hmem)
    have hentries : Schema.entries Repository.decode (Entries.collapse (keyed entries))
      = .accepted repos := h
    rw [collapse_keyed] at hentries
    exact areWritable_of_entries hcollapse hentries

/-- What is decoded from a value that can be read can be written. -/
theorem Config.isWritable_of_decode (hv : Each WithinLimit v) {c : Config}
    (h : Config.decode v = .accepted c) : c.IsWritable := by
  obtain ⟨entries, rfl, hentries⟩ := object_of_record h
  simp only [seq_accepted_iff, functorMap_accepted_iff] at hentries
  obtain ⟨_, _, ⟨_, _, ⟨_, repos, ⟨_, title, ⟨dbPath, hdbPath, rfl⟩, htitle, rfl⟩, hrepos, rfl⟩,
    hindexers, rfl⟩, hhealth, rfl⟩ := hentries
  have hareWritable : Config.AreWritable repos := by
    refine of_optional areWritable_nil ?_ hrepos
    exact fun _ _ hmem _ => areWritable_of_nullableMap (of_mem_keyed hv hmem).1
  exact ⟨isScalar_of_optional hdbPath, isScalar_of_optional htitle, hareWritable,
    isWritable_of_optional hv hindexers, isScalar_of_optional hhealth⟩

end Writable

end SearchConfig
