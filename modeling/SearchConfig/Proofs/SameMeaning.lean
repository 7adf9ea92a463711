import SearchConfig.Proofs.Respelling

/-!
# Values of the same meaning

A value is decoded from what its fields are found as, so a change that leaves that leaves what is
decoded (`Config.decode_respelled`). Problems stay in number, kind and order, and their places stay
up to the names of the fields in them, which `ConfigOf.outward` replaces by the outer ones. A series
of changes leaves all this as well, and a file is loaded alike (`only_meaningful_keys_matter`).
-/

namespace SearchConfig

open Json Schema

namespace Decoded

variable {α β : Type} {f g : Place → Place}

/-- What is decoded, with the places of problems changed. -/
def withPlaces (f : Place → Place) : Decoded α → Decoded α
  | accepted a => accepted a
  | refused problems => refused (problems.map fun p => { p with place := f p.place })

theorem withPlaces_map (h : α → β) (x : Decoded α) :
    (x.map h).withPlaces f = (x.withPlaces f).map h := by
  cases x <;> rfl

theorem withPlaces_functorMap (h : α → β) (x : Decoded α) :
    (h <$> x).withPlaces f = h <$> x.withPlaces f := withPlaces_map h x

theorem withPlaces_both (x : Decoded (α → β)) (y : Decoded α) :
    (both x y).withPlaces f = both (x.withPlaces f) (y.withPlaces f) := by
  cases x <;> cases y <;> simp [both, withPlaces, problems]

theorem withPlaces_seq (x : Decoded (α → β)) (y : Decoded α) :
    (x <*> y).withPlaces f = x.withPlaces f <*> y.withPlaces f := withPlaces_both x y

theorem withPlaces_all (xs : List (Decoded α)) :
    (all xs).withPlaces f = all (xs.map (withPlaces f)) := by
  induction xs with
  | nil => rfl
  | cons x xs ih => rw [all, withPlaces_both, withPlaces_map, ih]; rfl

theorem withPlaces_under {step step' : Step} (h : ∀ place, f (step :: place) = step' :: g place)
    (x : Decoded α) : (x.under step).withPlaces f = (x.withPlaces g).under step' := by
  cases x <;> simp [under, withPlaces, h]

/-- Where only places differ, and these not when they are changed, the same is accepted, or refused
for the same faults in the same order. -/
theorem alike_of_withPlaces {x y : Decoded α} (h : y.withPlaces f = x.withPlaces f) :
    (∃ a, x = accepted a ∧ y = accepted a)
      ∨ ∃ problems problems', x = refused problems ∧ y = refused problems'
        ∧ List.Forall₂ (fun p q => q.fault = p.fault ∧ f q.place = f p.place)
          problems problems' := by
  rcases x with a | problems <;> rcases y with b | problems'
  · exact .inl ⟨a, rfl, h⟩
  · cases h
  · cases h
  · refine .inr ⟨problems, problems', rfl, rfl, ?_⟩
    have hplaces := refused.inj h
    rw [← List.forall₂_eq_eq_eq, List.forall₂_map_left_iff, List.forall₂_map_right_iff] at hplaces
    refine hplaces.flip.imp fun p q heq => ?_
    obtain ⟨hplace, hfault⟩ := Problem.mk.inj heq
    exact ⟨hfault, hplace⟩

theorem outcome_withPlaces (f : Place → Place) (x : Decoded α) :
    (x.withPlaces f).outcome = x.outcome := by
  cases x <;> simp [withPlaces, outcome]

end Decoded

namespace Place

/-- The place with its first step replaced by the outer name of the field that it names, and changed
behind that. -/
def outwardIn (fields : List FieldName) (inside : FieldName → Place → Place) : Place → Place
  | .key name :: rest =>
    match fields.find? fun field => field.Names name with
    | some field => .key field.outer :: inside field rest
    | none => .key name :: rest
  | place => place

theorem outwardIn_key {fields : List FieldName} (hfields : AreTellable fields) {field : FieldName}
    (hfield : field ∈ fields) {name : Text} (hname : field.Names name)
    (inside : FieldName → Place → Place) (rest : Place) :
    outwardIn fields inside (.key name :: rest) = .key field.outer :: inside field rest := by
  rw [outwardIn, hfields.find?_eq hfield hname]

/-- The place behind the first step changed. -/
def inEntry (f : Place → Place) : Place → Place
  | step :: rest => step :: f rest
  | [] => []

end Place

def UrlPattern.outward : Place → Place := Place.outwardIn fields fun _ place => place

def RepositoryOf.outward : Place → Place := Place.outwardIn fields fun field place =>
  if field = urlPatternField then UrlPattern.outward place else place

/-- The place with the names of all fields replaced by their outer ones. -/
def ConfigOf.outward : Place → Place := Place.outwardIn fields fun field place =>
  if field = reposField then Place.inEntry RepositoryOf.outward place else place

section Record

variable {β : Type} {fields : List FieldName} {inside : FieldName → Json → Json → Prop}
  {outward : FieldName → Place → Place} {entries entries' : List (List Char × Json)}
  {field : FieldName} {read : Json → Decoded β}

theorem under_respelled (hfields : AreTellable fields) (hfield : field ∈ fields)
    (hread : ∀ v w, inside field v w →
      (read w).withPlaces (outward field) = (read v).withPlaces (outward field))
    {x y : Text × Json}
    (h : field.Names x.1 ∧ field.Names y.1 ∧ (x.2 = y.2 ∨ inside field x.2 y.2)) :
    ((read y.2).under (.key y.1)).withPlaces (Place.outwardIn fields outward)
      = ((read x.2).under (.key x.1)).withPlaces (Place.outwardIn fields outward) := by
  obtain ⟨hx, hy, hvalue⟩ := h
  rw [Decoded.withPlaces_under (Place.outwardIn_key hfields hfield hx outward),
    Decoded.withPlaces_under (Place.outwardIn_key hfields hfield hy outward)]
  rcases hvalue with heq | hinside
  · rw [heq]
  · rw [hread _ _ hinside]

theorem optional_respelled (hfields : AreTellable fields)
    (h : RespelledEntries fields inside entries entries') (hfield : field ∈ fields) (absent : β)
    (hread : ∀ v w, inside field v w →
      (read w).withPlaces (outward field) = (read v).withPlaces (outward field)) :
    (Schema.optional field absent read (keyed entries')).withPlaces (Place.outwardIn fields outward)
      = (Schema.optional field absent read (keyed entries)).withPlaces
        (Place.outwardIn fields outward) := by
  have hfound := found_respelled hfields h hfield
  unfold Schema.optional
  generalize find? field (keyed entries) = x at hfound ⊢
  generalize find? field (keyed entries') = y at hfound ⊢
  cases hfound with
  | none => rfl
  | some hfound => exact under_respelled hfields hfield hread hfound

theorem required_respelled (hfields : AreTellable fields)
    (h : RespelledEntries fields inside entries entries') (hfield : field ∈ fields)
    (hread : ∀ v w, inside field v w →
      (read w).withPlaces (outward field) = (read v).withPlaces (outward field)) :
    (required field read (keyed entries')).withPlaces (Place.outwardIn fields outward)
      = (required field read (keyed entries)).withPlaces (Place.outwardIn fields outward) := by
  have hfound := found_respelled hfields h hfield
  unfold required
  generalize find? field (keyed entries) = x at hfound ⊢
  generalize find? field (keyed entries') = y at hfound ⊢
  cases hfound with
  | none => rfl
  | some hfound => exact under_respelled hfields hfield hread hfound

end Record

theorem UrlPattern.decode_respelled {v w : Json} (h : UrlPattern.Respelled v w) :
    (decode w).withPlaces outward = (decode v).withPlaces outward := by
  obtain ⟨entries, entries', rfl, rfl, h⟩ := h
  have htext : ∀ field ∈ fields,
      (Schema.optional field [] text (keyed entries')).withPlaces outward
        = (Schema.optional field [] text (keyed entries)).withPlaces outward :=
    fun field hfield => optional_respelled areTellable_fields h hfield [] fun _ _ => False.elim
  simp only [decode, record_object, Decoded.withPlaces_seq, Decoded.withPlaces_functorMap]
  rw [htext baseUrlField (by decide), htext anchorField (by decide)]

theorem nullable_respelled {v w : Json} (h : UrlPattern.Respelled v w) :
    (nullable UrlPattern.decode w).withPlaces UrlPattern.outward
      = (nullable UrlPattern.decode v).withPlaces UrlPattern.outward := by
  have hdecode := UrlPattern.decode_respelled h
  obtain ⟨entries, entries', rfl, rfl, -⟩ := h
  have hobject : ∀ es, nullable UrlPattern.decode (object es)
      = (UrlPattern.decode (object es)).map some := fun _ => rfl
  rw [hobject, hobject, Decoded.withPlaces_map, hdecode, Decoded.withPlaces_map]

theorem Repository.decode_respelled {v w : Json} (h : RepositoryOf.Respelled v w) :
    (decode w).withPlaces RepositoryOf.outward = (decode v).withPlaces RepositoryOf.outward := by
  obtain ⟨entries, entries', rfl, rfl, h⟩ := h
  have hurl : (required RepositoryOf.urlField text (keyed entries')).withPlaces RepositoryOf.outward
      = (required RepositoryOf.urlField text (keyed entries)).withPlaces RepositoryOf.outward :=
    required_respelled RepositoryOf.areTellable_fields h (by decide) fun _ _ hinside =>
      absurd hinside.1 (by decide)
  have hpattern : (Schema.optional RepositoryOf.urlPatternField none (nullable UrlPattern.decode)
        (keyed entries')).withPlaces RepositoryOf.outward
      = (Schema.optional RepositoryOf.urlPatternField none (nullable UrlPattern.decode)
        (keyed entries)).withPlaces RepositoryOf.outward :=
    optional_respelled RepositoryOf.areTellable_fields h (by decide) none fun _ _ hinside =>
      nullable_respelled hinside.2
  have hother : ∀ {β : Type} (field : FieldName) (absent : β) (read : Json → Decoded β),
      field ∈ RepositoryOf.fields → field ≠ RepositoryOf.urlPatternField →
      (Schema.optional field absent read (keyed entries')).withPlaces RepositoryOf.outward
        = (Schema.optional field absent read (keyed entries)).withPlaces RepositoryOf.outward :=
    fun field absent read hfield hne => optional_respelled RepositoryOf.areTellable_fields h hfield absent
      fun _ _ hinside => absurd hinside.1 hne
  simp only [decode, RepositoryOf.decode, record_object, Decoded.withPlaces_seq,
    Decoded.withPlaces_functorMap]
  rw [hurl, hpattern]
  simp (disch := decide) only [hother]

theorem withPlaces_entry {β : Type} {read : Json → Decoded β} {f : Place → Place} (key : List Char)
    (v : Json) : (entry read (Json.key key, v)).withPlaces (Place.inEntry f)
      = entry (fun v => (read v).withPlaces f) (Json.key key, v) := by
  have hunder : ∀ (step : Step) (x : Decoded (Text × β)),
      (x.under step).withPlaces (Place.inEntry f) = (x.withPlaces f).under step :=
    fun _ => Decoded.withPlaces_under fun _ => rfl
  rw [entry, hunder, Decoded.withPlaces_seq]
  rfl

theorem withPlaces_nullableMap {β : Type} {read : Json → Decoded β} {f : Place → Place}
    (entries : List (List Char × Json)) :
    (nullableMap read (object entries)).withPlaces (Place.inEntry f)
      = nullableMap (fun v => (read v).withPlaces f) (object entries) := by
  rw [nullableMap_object, nullableMap_object, Schema.entries, Decoded.withPlaces_map,
    Decoded.withPlaces_all, Schema.entries, keyed, List.map_map, List.map_map, List.map_map]
  simp only [Function.comp_def, withPlaces_entry]

theorem nullableMap_respelled {v w : Json} (h : ConfigOf.RespelledRepos v w) :
    (nullableMap Repository.decode w).withPlaces (Place.inEntry RepositoryOf.outward)
      = (nullableMap Repository.decode v).withPlaces (Place.inEntry RepositoryOf.outward) := by
  obtain ⟨before, after, name, repository, repository', rfl, rfl, h⟩ := h
  rw [withPlaces_nullableMap, withPlaces_nullableMap]
  refine nullableMap_congr ?_
  simp only [Entries.mapValues, List.map_append, List.map_cons, Repository.decode_respelled h]

/-- One change that is to make no difference makes none but to the names in the places of
problems. -/
theorem Config.decode_respelled {v w : Json} (h : ConfigOf.Respelled v w) :
    (decode w).withPlaces ConfigOf.outward = (decode v).withPlaces ConfigOf.outward := by
  obtain ⟨entries, entries', rfl, rfl, h⟩ := h
  have hrepos : (Schema.optional ConfigOf.reposField [] (nullableMap Repository.decode)
        (keyed entries')).withPlaces ConfigOf.outward
      = (Schema.optional ConfigOf.reposField [] (nullableMap Repository.decode)
        (keyed entries)).withPlaces ConfigOf.outward :=
    optional_respelled ConfigOf.areTellable_fields h (by decide) [] fun _ _ hinside =>
      nullableMap_respelled hinside.2
  have hother : ∀ {β : Type} (field : FieldName) (absent : β) (read : Json → Decoded β),
      field ∈ ConfigOf.fields → field ≠ ConfigOf.reposField →
      (Schema.optional field absent read (keyed entries')).withPlaces ConfigOf.outward
        = (Schema.optional field absent read (keyed entries)).withPlaces ConfigOf.outward :=
    fun field absent read hfield hne => optional_respelled ConfigOf.areTellable_fields h hfield absent
      fun _ _ hinside => absurd hinside.1 hne
  simp only [decode, ConfigOf.decode, record_object, Decoded.withPlaces_seq,
    Decoded.withPlaces_functorMap]
  rw [hrepos]
  simp (disch := decide) only [hother]

theorem Config.decode_of_sameMeaning {v w : Json} (h : ConfigOf.SameMeaning v w) :
    (decode w).withPlaces ConfigOf.outward = (decode v).withPlaces ConfigOf.outward := by
  induction h with
  | rel _ _ h => exact decode_respelled h
  | refl _ => rfl
  | symm _ _ _ ih => exact ih.symm
  | trans _ _ _ _ _ ih ih' => exact ih'.trans ih

/-- Let two files hold values of the same meaning. Then the same is decoded, or both are refused for
the same faults in the same order, at places that differ only in the names of fields, and either file
in the place of the other is loaded alike. -/
theorem only_meaningful_keys_matter {files : Files} {place : List Text} {a b : ByteArray} {v w : Json}
    (hat : files.at? place = some (.file a)) (hv : ofBytes? a = some v) (hw : ofBytes? b = some w)
    (h : ConfigOf.SameMeaning v w) :
    ((∃ c, Decoded.ofBytes Config.decode a = .accepted c
        ∧ Decoded.ofBytes Config.decode b = .accepted c)
      ∨ ∃ problems problems', Decoded.ofBytes Config.decode a = .refused problems
        ∧ Decoded.ofBytes Config.decode b = .refused problems'
        ∧ List.Forall₂ (fun p q => q.fault = p.fault
          ∧ ConfigOf.outward q.place = ConfigOf.outward p.place) problems problems')
    ∧ ∀ name, Config.load (files.plant place (.file b)) name = Config.load files name := by
  have hdecode : (Decoded.ofBytes Config.decode b).withPlaces ConfigOf.outward
      = (Decoded.ofBytes Config.decode a).withPlaces ConfigOf.outward := by
    rw [Decoded.ofBytes, hw, Decoded.ofBytes, hv]
    exact Config.decode_of_sameMeaning h
  refine ⟨Decoded.alike_of_withPlaces hdecode, fun name => ?_⟩
  have houtcome := congrArg Decoded.outcome hdecode
  rw [Decoded.outcome_withPlaces, Decoded.outcome_withPlaces] at houtcome
  exact (Config.load_plant_of_decode hat houtcome.symm name).symm

/-- The path of the database is no text under either of its names, and what is written beside the poll
interval does not matter. -/
theorem only_meaningful_keys_matter_renamed :
    let repository : Json := .object [("url".toList, .string ['u']), ("ms-between-poll".toList, .int 5)]
    let v : Json := .object [("dbpath".toList, .int 1),
      ("repos".toList, .object [("r".toList, repository)])]
    let shadowed : Json := .object [("url".toList, .string ['u']), ("ms-between-poll".toList, .int 5),
      ("ms_between_poll".toList, .bool true)]
    let w : Json := .object [("x".toList, .null), ("repos".toList, .object [("r".toList, shadowed)]),
      ("db_path".toList, .int 1)]
    ConfigOf.SameMeaning v w
      ∧ Decoded.ofBytes Config.decode v.toBytes = .refused [⟨[.key "dbpath"], .notText⟩]
      ∧ Decoded.ofBytes Config.decode w.toBytes = .refused [⟨[.key "db_path"], .notText⟩]
      ∧ Config.load (.single "config.json" v.toBytes) "config.json"
        = Config.load ((Files.single "config.json" v.toBytes).plant ["config.json"]
          (.file w.toBytes)) "config.json" := by
  intro repository v shadowed w
  have hv : ofBytes? v.toBytes = some v := by
    refine ofBytes?_toBytes ?_ (by decide)
    simp [v, repository, Each, EachEntry, ReadsBack, Digits.isWritable]
    decide
  have hw : ofBytes? w.toBytes = some w := by
    refine ofBytes?_toBytes ?_ (by decide)
    simp [w, shadowed, Each, EachEntry, ReadsBack, Digits.isWritable]
    decide
  have hshadow : RepositoryOf.Respelled repository shadowed :=
    ⟨_, _, rfl, rfl, @RespelledEntries.shadow _ _
      [("url".toList, .string ['u']), ("ms-between-poll".toList, .int 5)] []
      RepositoryOf.msBetweenPollField "ms_between_poll".toList (.bool true) (by decide) rfl (by decide)
      ⟨("ms-between-poll".toList, .int 5), .tail _ (.head _), rfl⟩⟩
  have hinside : ConfigOf.Respelled v (.object [("dbpath".toList, .int 1),
      ("repos".toList, .object [("r".toList, shadowed)])]) :=
    ⟨_, _, rfl, rfl, @RespelledEntries.inside _ _ [("dbpath".toList, .int 1)] []
      ConfigOf.reposField "repos".toList _ _ (by decide) (by decide)
      ⟨rfl, [], [], "r".toList, _, _, rfl, rfl, hshadow⟩⟩
  have hrename : ConfigOf.Respelled (.object [("dbpath".toList, .int 1),
      ("repos".toList, .object [("r".toList, shadowed)])]) (.object [("db_path".toList, .int 1),
      ("repos".toList, .object [("r".toList, shadowed)])]) :=
    ⟨_, _, rfl, rfl, @RespelledEntries.rename _ _ []
      [("repos".toList, .object [("r".toList, shadowed)])] ConfigOf.dbPathField "dbpath".toList
      "db_path".toList (.int 1) (by decide) rfl rfl (by decide)⟩
  have hreorder : ConfigOf.Respelled (.object [("db_path".toList, .int 1),
      ("repos".toList, .object [("r".toList, shadowed)])])
      (.object [("repos".toList, .object [("r".toList, shadowed)]), ("db_path".toList, .int 1)]) :=
    ⟨_, _, rfl, rfl, .reorder (by decide) (.swap _ _ _)⟩
  have hunknown : ConfigOf.Respelled
      (.object [("repos".toList, .object [("r".toList, shadowed)]), ("db_path".toList, .int 1)]) w :=
    ⟨_, _, rfl, rfl, @RespelledEntries.unknown _ _ []
      [("repos".toList, .object [("r".toList, shadowed)]), ("db_path".toList, .int 1)] "x".toList
      .null (by decide)⟩
  have hsame : ConfigOf.SameMeaning v w :=
    .trans _ _ _ (.rel _ _ hinside) (.trans _ _ _ (.rel _ _ hrename)
      (.trans _ _ _ (.rel _ _ hreorder) (.rel _ _ hunknown)))
  have hat : (Files.single "config.json" v.toBytes).at? ["config.json"] = some (.file v.toBytes) :=
    rfl
  refine ⟨hsame, ?_, ?_, ((only_meaningful_keys_matter hat hv hw hsame).2 "config.json").symm⟩
  · rw [Decoded.ofBytes, hv]
    rfl
  · rw [Decoded.ofBytes, hw]
    rfl

end SearchConfig
