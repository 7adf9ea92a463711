import SearchConfig.Proofs.CanonicalForms
import SearchConfig.Proofs.Demands
import SearchConfig.Proofs.Loading

/-!
# Problems accounted for

Decoding tells a list of problems if it accepts just when the list is empty and refuses with just
these problems otherwise. Parts that are put together tell the problems of both (`Tells.seq`), so
where no object repeats a key decoding a record tells the problems with its fields one after the
other, and decoding a configuration tells what is demanded of it (`Demand.isToldBy_config`). A load
reports how many problems there are.
-/

namespace SearchConfig

namespace Decoded

variable {α β : Type}

/-- Data is accepted if there are no problems, and refused with just these problems otherwise. -/
inductive Tells : List Problem → Decoded α → Prop
  | accepted (a : α) : Tells [] (accepted a)
  | refused {problems : List Problem} : problems ≠ [] → Tells problems (refused problems)

variable {problems problems' : List Problem} {x : Decoded α}

theorem tells_fail (fault : Fault) : (fail fault : Decoded α).Tells [⟨[], fault⟩] :=
  .refused (List.cons_ne_nil _ _)

theorem Tells.eq_refused (h : x.Tells problems) (hne : problems ≠ []) : x = .refused problems := by
  cases h with
  | accepted a => exact absurd rfl hne
  | refused _ => rfl

theorem Tells.exists_eq_accepted (h : x.Tells []) : ∃ a, x = .accepted a := by
  cases h with
  | accepted a => exact ⟨a, rfl⟩
  | refused hne => exact absurd rfl hne

theorem Tells.map (h : x.Tells problems) (f : α → β) : (x.map f).Tells problems := by
  cases h with
  | accepted a => exact .accepted (f a)
  | refused hne => exact .refused hne

theorem Tells.under (h : x.Tells problems) (step : Step) :
    (x.under step).Tells (problems.map (Problem.under step)) := by
  cases h with
  | accepted a => exact .accepted a
  | refused hne => exact .refused (by simpa using hne)

/-- Two parts tell the problems of both. -/
theorem Tells.seq {f : Decoded (α → β)} (hf : f.Tells problems) (hx : x.Tells problems') :
    (f <*> x).Tells (problems ++ problems') := by
  cases hf with
  | accepted f =>
    cases hx with
    | accepted a => exact .accepted (f a)
    | refused hne => exact .refused hne
  | refused hne =>
    cases hx with
    | accepted a => exact .refused (by simpa using hne)
    | refused _ => exact .refused (by simp [hne])

theorem Tells.functorMap (h : x.Tells problems) (f : α → β) : (f <$> x).Tells problems := h.map f

/-- So do all parts of a list. -/
theorem tells_all {ι : Type} {f : ι → Decoded α} {g : ι → List Problem} :
    ∀ {is : List ι}, (∀ i ∈ is, (f i).Tells (g i)) → (all (is.map f)).Tells (is.flatMap g)
  | [], _ => .accepted []
  | i :: is, h => by
    obtain ⟨hi, his⟩ := List.forall_mem_cons.1 h
    exact (hi.map List.cons).seq (tells_all his)

end Decoded

open Json Schema

section Found

variable {β : Type} {entries : List (List Char × Json)}

theorem named?_of_nodup (h : (Entries.keys entries).Nodup) (name : Text) :
    named? name (keyed entries) = Entries.get? name (byName entries) := by
  have hinj : Function.Injective fun key : List Char => some (Text.ofChars key) :=
    fun _ _ heq => Text.ofChars_injective (Option.some.inj heq)
  have hkeys : (Entries.keys ((keyed entries).map fun (key, v) => (key.text?, v))).Nodup := by
    have hmap : Entries.keys ((keyed entries).map fun (key, v) => (key.text?, v))
        = (Entries.keys entries).map fun key => some (Text.ofChars key) := by
      simp only [Entries.keys, keyed, List.map_map]
      rfl
    rw [hmap]
    exact h.map hinj
  rw [named?, Entries.last?_eq_get? hkeys]
  clear h hkeys
  induction entries with
  | nil => rfl
  | cons entry entries ih =>
    obtain ⟨key, v⟩ := entry
    have hcons : byName ((key, v) :: entries) = (.ofChars key, v) :: byName entries := rfl
    have hkeyed : (keyed ((key, v) :: entries)).map (fun (key, v) => (key.text?, v))
        = (some (.ofChars key), v) :: (keyed entries).map fun (key, v) => (key.text?, v) := rfl
    rw [hcons, hkeyed, Entries.get?_cons, Entries.get?_cons, ih]
    rfl

theorem find?_of_nodup (h : (Entries.keys entries).Nodup) (field : FieldName) :
    find? field (keyed entries) = match Entries.get? field.outer (byName entries) with
      | some v => some (field.outer, v)
      | none => (Entries.get? field.inner (byName entries)).map fun v => (field.inner, v) := by
  rw [find?, named?_of_nodup h, named?_of_nodup h]
  rcases Entries.get? field.outer (byName entries) with _ | v <;> rfl

end Found

namespace Demand

variable {β : Type} {demand : Demand} {read : Json → Decoded β}

/-- Does reading a value that repeats no key tell the problems with it? -/
def IsToldBy (demand : Demand) (read : Json → Decoded β) : Prop :=
  ∀ v, v.HasDistinctKeys → (read v).Tells (demand v)

theorem isToldBy_text : (must .notText).IsToldBy text := by
  intro v _
  cases v <;> first | exact .accepted _ | exact Decoded.tells_fail _

theorem isToldBy_integer : (must .notInteger).IsToldBy integer := by
  intro v _
  cases v <;> first | exact .accepted _ | exact Decoded.tells_fail _

theorem isToldBy_truth : (must .notTruth).IsToldBy Schema.truth := by
  intro v _
  cases v <;> first | exact .accepted _ | exact Decoded.tells_fail _

theorem isToldBy_nullable_strictTruth : (must .notTruth).IsToldBy (nullable strictTruth) := by
  intro v _
  cases v <;> first | exact .accepted _ | exact Decoded.tells_fail _

theorem isToldBy_nullable_secret : IsToldBy (fun _ => []) (nullable secret) := by
  intro v _
  cases v <;> exact .accepted _

theorem IsToldBy.nullable (h : demand.IsToldBy read) : demand.orNull.IsToldBy (nullable read) := by
  intro v hv
  cases v with
  | null => exact .accepted none
  | _ => exact (h _ hv).map some

section Fields

variable {entries : List (List Char × Json)}

theorem hasDistinctKeys_of_find? (hentries : (object entries).HasDistinctKeys) {field : FieldName}
    {name : Text} {v : Json} (h : find? field (keyed entries) = some (name, v)) :
    v.HasDistinctKeys := by
  rw [find?_of_nodup hentries.1] at h
  split at h
  · rename_i w houter
    obtain ⟨rfl, rfl⟩ := Prod.mk.inj (Option.some.inj h)
    exact hasDistinctKeys_of_get? hentries houter
  · obtain ⟨w, hinner, heq⟩ := Option.map_eq_some_iff.1 h
    obtain ⟨rfl, rfl⟩ := Prod.mk.inj heq
    exact hasDistinctKeys_of_get? hentries hinner

/-- The problems with a field are those with the value that is found for it. -/
theorem OfField.problems_eq (hentries : (object entries).HasDistinctKeys) (f : OfField) :
    f.problems entries = match find? f.field (keyed entries) with
      | some (name, v) => (f.demand v).map (Problem.under (.key name))
      | none => if f.isRequired then [⟨[.key f.field.outer], .missing⟩] else [] := by
  rw [find?_of_nodup hentries.1, problems]
  rcases Entries.get? f.field.outer (byName entries) with _ | v
  · rcases Entries.get? f.field.inner (byName entries) with _ | v <;> rfl
  · rfl

theorem tells_optional (h : demand.IsToldBy read) (hentries : (object entries).HasDistinctKeys)
    (field : FieldName) (absent : β) : (Schema.optional field absent read (keyed entries)).Tells
      (OfField.problems ⟨field, false, demand⟩ entries) := by
  rw [OfField.problems_eq hentries, Schema.optional]
  rcases hfind : find? field (keyed entries) with _ | ⟨name, v⟩
  · exact .accepted absent
  · exact (h v (hasDistinctKeys_of_find? hentries hfind)).under _

theorem tells_required (h : demand.IsToldBy read) (hentries : (object entries).HasDistinctKeys)
    (field : FieldName) : (required field read (keyed entries)).Tells
      (OfField.problems ⟨field, true, demand⟩ entries) := by
  rw [OfField.problems_eq hentries, required]
  rcases hfind : find? field (keyed entries) with _ | ⟨name, v⟩
  · exact (Decoded.tells_fail .missing).under _
  · exact (h v (hasDistinctKeys_of_find? hentries hfind)).under _

end Fields

/-- A record is told if its fields are, one after the other. -/
theorem isToldBy_record {fields : List OfField} {read : List (Key × Json) → Decoded β}
    (h : ∀ entries, (object entries).HasDistinctKeys →
      (read (keyed entries)).Tells (fields.flatMap fun f => f.problems entries)) :
    (record fields).IsToldBy (Schema.record read) := by
  intro v hv
  cases v with
  | object entries => exact h entries hv
  | _ => exact Decoded.tells_fail .notRecord

theorem isToldBy_nullableMap (h : demand.IsToldBy read) :
    (map demand).IsToldBy (nullableMap read) := by
  intro v hv
  cases v with
  | object entries =>
    rw [nullableMap_object, Entries.collapse_of_nodup hv.1]
    refine Decoded.Tells.map ?_ Entries.collapse
    rw [keyed, List.map_map]
    refine Decoded.tells_all ?_
    rintro ⟨key, v⟩ hmem
    have hv' := (entriesHaveDistinctKeys_iff entries).1 hv.2 _ hmem
    have hname : ((Json.key key).name.under (.key "[key]")).Tells [] :=
      .accepted (Text.ofChars key)
    exact ((hname.functorMap Prod.mk).seq (h v hv')).under _
  | null => exact .accepted []
  | _ => exact Decoded.tells_fail .notMap

theorem isToldBy_pattern : (record patternFields).IsToldBy UrlPattern.decode := by
  refine isToldBy_record fun entries hentries => ?_
  have hfields := ((tells_optional isToldBy_text hentries UrlPattern.baseUrlField []).functorMap
    UrlPattern.mk).seq (tells_optional isToldBy_text hentries UrlPattern.anchorField [])
  simpa [patternFields] using hfields

open RepositoryOf in
theorem isToldBy_repository : (record repositoryFields).IsToldBy Repository.decode := by
  refine isToldBy_record fun entries hentries => ?_
  have hfields := ((tells_required isToldBy_text hentries urlField).functorMap
    (@RepositoryOf.mk Secret UrlPattern))
    |>.seq (tells_optional isToldBy_integer hentries msBetweenPollField 0)
    |>.seq (tells_optional isToldBy_text hentries vcsField [])
    |>.seq (tells_optional isToldBy_nullable_secret hentries vcsConfigField none)
    |>.seq (tells_optional isToldBy_pattern.nullable hentries urlPatternField none)
    |>.seq (tells_optional isToldBy_truth hentries excludeDotFilesField false)
    |>.seq (tells_optional isToldBy_nullable_strictTruth hentries enablePollUpdatesField none)
    |>.seq (tells_optional isToldBy_nullable_strictTruth hentries enablePushUpdatesField none)
  simpa [repositoryFields] using hfields

open ConfigOf in
theorem isToldBy_config : config.IsToldBy Config.decode := by
  refine isToldBy_record fun entries hentries => ?_
  have hfields := ((tells_optional isToldBy_text hentries dbPathField []).functorMap
    (@ConfigOf.mk Repository))
    |>.seq (tells_optional isToldBy_text hentries titleField [])
    |>.seq (tells_optional (isToldBy_nullableMap isToldBy_repository) hentries reposField [])
    |>.seq (tells_optional isToldBy_integer hentries maxConcurrentIndexersField 0)
    |>.seq (tells_optional isToldBy_text hentries healthCheckUriField [])
  simpa [configFields] using hfields

end Demand

namespace Config

variable {files : Files} {name : Text} {bytes : ByteArray}

/-- Does a load fail with the given number of problems? -/
def ReportsErrors (files : Files) (name : Text) (count : Nat) : Prop :=
  ∃ f, load files name = .error (.failure f) ∧ f.kind = .configDecode
    ∧ f.details = ([("path", .text (Path.ofText name).toText), ("errors", .int count)] :
      List (Text × Value))

theorem reportsErrors_of_refused {problems : List Problem}
    (hread : files.read (Path.ofText name).toText = .ok bytes)
    (h : Decoded.ofBytes decode bytes = .refused problems) :
    ReportsErrors files name problems.length :=
  ⟨_, load_of_error (ofFile_of_refused hread h), rfl, rfl⟩

theorem kind_ne_of_accepted {c : Config} (hread : files.read (Path.ofText name).toText = .ok bytes)
    (h : Decoded.ofBytes decode bytes = .accepted c) {f : Failure}
    (hload : load files name = .error (.failure f)) : f.kind ≠ .configDecode := by
  rw [load_of_ok (ofFile_of_accepted hread h)] at hload
  obtain ⟨fault, hplace⟩ | ⟨cause, hplace⟩ | ⟨place, hplace⟩ :=
    resolveDbPath_cases files c.dbPath (.ofText name) <;> rw [hplace] at hload
  · cases hload
  · cases hload
    simp [unresolvable]
  · cases hload

/-- Where no object repeats a key, the problems that a text is refused with are just those with what
is demanded, each at a place of its own that leads to what is wrong, and a load reports how many
there are. -/
theorem problems_accounted :
    (∀ bytes v, Json.ofBytes? bytes = some v → v.HasDistinctKeys →
      (Decoded.ofBytes decode bytes).Tells (Demand.config v)
      ∧ ((Demand.config v).map Problem.place).Nodup
      ∧ ∀ p ∈ Demand.config v, p.LeadsTo v ∧ Demand.InConfig p.place)
    ∧ ∀ files name bytes, files.read (Path.ofText name).toText = .ok bytes →
      (Json.ofBytes? bytes = none → ReportsErrors files name 1)
      ∧ ∀ v, Json.ofBytes? bytes = some v → v.HasDistinctKeys →
        (Demand.config v ≠ [] → ReportsErrors files name (Demand.config v).length)
        ∧ (Demand.config v = [] →
          ∀ f, load files name = .error (.failure f) → f.kind ≠ .configDecode) := by
  have htells : ∀ bytes v, Json.ofBytes? bytes = some v → v.HasDistinctKeys →
      (Decoded.ofBytes decode bytes).Tells (Demand.config v) := by
    intro bytes v hv hkeys
    rw [Decoded.ofBytes_of_read hv]
    exact Demand.isToldBy_config v hkeys
  refine ⟨fun bytes v hv hkeys => ⟨htells bytes v hv hkeys, ?_, ?_⟩,
    fun files name bytes hread => ⟨?_, ?_⟩⟩
  · exact Demand.isPrecise_config.nodup v hkeys
  · exact fun p hp => ⟨Demand.isPrecise_config.leads v hkeys p hp, Demand.inConfig_of_mem hp⟩
  · intro hmalformed
    refine @reportsErrors_of_refused _ _ _ [⟨[], .malformed⟩] hread ?_
    rw [Decoded.ofBytes, hmalformed]
    rfl
  · intro v hv hkeys
    have htold := htells bytes v hv hkeys
    refine ⟨fun hne => reportsErrors_of_refused hread (htold.eq_refused hne), fun hnone f => ?_⟩
    rw [hnone] at htold
    obtain ⟨c, hdecode⟩ := htold.exists_eq_accepted
    exact kind_ne_of_accepted hread hdecode

/-- A configuration with problems at every depth, and with a secret and an unknown key. -/
def flawed : Json :=
  .object [("title".toList, .int 5), ("repos".toList, .object [
    ("r".toList, .object [("url-pattern".toList, .object [("anchor".toList, .bool true)]),
      ("vcs-config".toList, .array []), ("other".toList, .int 1)]),
    ("s".toList, .null)]), ("dbpath".toList, .array []),
    ("max_concurrent_indexers".toList, .string ['2'])]

/-- The problems with it. -/
def flaws : List Problem := [
  ⟨[.key "dbpath"], .notText⟩,
  ⟨[.key "title"], .notText⟩,
  ⟨[.key "repos", .key "r", .key "url"], .missing⟩,
  ⟨[.key "repos", .key "r", .key "url-pattern", .key "anchor"], .notText⟩,
  ⟨[.key "repos", .key "s"], .notRecord⟩,
  ⟨[.key "max_concurrent_indexers"], .notInteger⟩]

theorem problems_accounted_flawed : Decoded.ofBytes decode flawed.toBytes = .refused flaws
    ∧ ReportsErrors (.single "config.json" flawed.toBytes) "config.json" 6 := by
  have hread : Json.ofBytes? flawed.toBytes = some flawed := by
    refine Json.ofBytes?_toBytes ?_ (by decide)
    simp [flawed, Each, EachEntry, EachItem, ReadsBack, Digits.isWritable]
    decide
  have hkeys : flawed.HasDistinctKeys := by
    simp [flawed, HasDistinctKeys, EntriesHaveDistinctKeys, ItemsHaveDistinctKeys, Entries.keys]
  have hflaws : Demand.config flawed = flaws := by decide
  obtain ⟨haccounted, hloads⟩ := problems_accounted
  have hrefused := (haccounted _ _ hread hkeys).1.eq_refused (List.cons_ne_nil _ _)
  have hreports :=
    (hloads (.single "config.json" flawed.toBytes) "config.json" _ rfl).2 _ hread hkeys
  rw [hflaws] at hrefused hreports
  exact ⟨hrefused, hreports.1 (List.cons_ne_nil _ _)⟩

end Config

end SearchConfig
