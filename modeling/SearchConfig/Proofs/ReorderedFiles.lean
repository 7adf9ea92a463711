import Mathlib.Data.List.Perm.Basic
import SearchConfig.Proofs.Respelling
import SearchConfig.Proofs.SortedListing

/-!
# Repositories in another order

Two files may name the same repositories in different orders. What is decoded from them differs in
the order of the repositories only (`Config.decode_of_reordered`), and so does what is loaded, except
that a database path may lead elsewhere (`Config.load_of_reordered`). So the files are listed alike,
and one in the place of the other is shown alike in every overview (`Session.listings_of_load`).
-/

namespace SearchConfig

open Json Schema

/-- Are the values the same but for the order of the repositories, whose names are distinct? -/
inductive Json.ReposReordered : Json → Json → Prop
  | same (v : Json) : ReposReordered v v
  | reorder {before after repos repos' : List (List Char × Json)} {key : List Char}
      (hkey : ConfigOf.reposField.Names (.ofChars key)) (hkeys : (Entries.keys repos).Nodup)
      (hperm : repos.Perm repos') :
      ReposReordered (.object (before ++ (key, .object repos) :: after))
        (.object (before ++ (key, .object repos') :: after))

section Map

variable {β : Type} {read : Json → Decoded β} {entries entries' : List (List Char × Json)}
  {bs : List (Text × β)}

/-- Is the entry of an object decoded as the entry of a map? -/
def IsReadAs (read : Json → Decoded β) (entry : List Char × Json) (b : Text × β) : Prop :=
  b.1 = .ofChars entry.1 ∧ read entry.2 = .accepted b.2

theorem keys_of_isReadAs (h : List.Forall₂ (IsReadAs read) entries bs) :
    Entries.keys bs = (Entries.keys entries).map Text.ofChars := by
  induction h with
  | nil => rfl
  | cons h _ ih => exact congrArg₂ List.cons h.1 ih

theorem all_entries_iff : Decoded.all ((keyed entries).map (entry read)) = .accepted bs
    ↔ List.Forall₂ (IsReadAs read) entries bs := by
  have hentry : ∀ (e : List Char × Json) (b : Text × β),
      entry read (Json.key e.1, e.2) = .accepted b ↔ IsReadAs read e b := by
    rintro ⟨key, v⟩ ⟨name, b⟩
    rw [entry_accepted_iff]
    simp [IsReadAs, Json.key, eq_comm]
  rw [Decoded.all_accepted_iff, keyed, ← List.forall₂_eq_eq_eq, List.forall₂_map_left_iff,
    List.forall₂_map_left_iff, List.forall₂_map_right_iff]
  exact ⟨fun h => h.imp fun e b => (hentry e b).1, fun h => h.imp fun e b => (hentry e b).2⟩

/-- A map of distinct names is decoded entry by entry. -/
theorem nullableMap_accepted_iff (hkeys : (Entries.keys entries).Nodup) :
    nullableMap read (object entries) = .accepted bs
      ↔ List.Forall₂ (IsReadAs read) entries bs := by
  have hcollapse : ∀ {as : List (Text × β)}, List.Forall₂ (IsReadAs read) entries as →
      Entries.collapse as = as := by
    intro as has
    refine Entries.collapse_of_nodup ?_
    rw [keys_of_isReadAs has]
    exact hkeys.map fun _ _ => Text.ofChars_injective
  rw [nullableMap_object, Entries.collapse_of_nodup hkeys, Schema.entries,
    Decoded.map_accepted_iff]
  constructor
  · rintro ⟨as, has, rfl⟩
    rw [all_entries_iff] at has
    rwa [hcollapse has]
  · intro h
    exact ⟨bs, all_entries_iff.2 h, hcollapse h⟩

theorem nullableMap_of_perm (hkeys : (Entries.keys entries).Nodup) (hperm : entries.Perm entries')
    (h : nullableMap read (object entries) = .accepted bs) :
    ∃ bs', nullableMap read (object entries') = .accepted bs' ∧ bs'.Perm bs := by
  rw [nullableMap_accepted_iff hkeys] at h
  obtain ⟨bs', h', hbs⟩ := List.perm_comp_forall₂ hperm.symm h
  have hkeys' : (Entries.keys entries').Nodup := (hperm.map Prod.fst).nodup_iff.1 hkeys
  exact ⟨bs', (nullableMap_accepted_iff hkeys').2 h', hbs⟩

end Map

namespace Config

variable {v w : Json} {c d : Config}

theorem decode_object_iff {entries : List (List Char × Json)} :
    decode (object entries) = .accepted c
      ↔ Schema.optional ConfigOf.dbPathField [] text (keyed entries) = .accepted c.dbPath
        ∧ Schema.optional ConfigOf.titleField [] text (keyed entries) = .accepted c.title
        ∧ Schema.optional ConfigOf.reposField [] (nullableMap Repository.decode) (keyed entries)
          = .accepted c.repos
        ∧ Schema.optional ConfigOf.maxConcurrentIndexersField 0 integer (keyed entries)
          = .accepted c.maxConcurrentIndexers
        ∧ Schema.optional ConfigOf.healthCheckUriField [] text (keyed entries)
          = .accepted c.healthCheckUri := by
  simp only [decode, ConfigOf.decode, record_object, Decoded.seq_accepted_iff,
    Decoded.functorMap_accepted_iff]
  constructor
  · rintro ⟨_, _, ⟨_, _, ⟨_, _, ⟨_, _, ⟨_, hdbPath, rfl⟩, htitle, rfl⟩, hrepos, rfl⟩, hindexers,
      rfl⟩, hhealth, rfl⟩
    exact ⟨hdbPath, htitle, hrepos, hindexers, hhealth⟩
  · rintro ⟨hdbPath, htitle, hrepos, hindexers, hhealth⟩
    exact ⟨_, _, ⟨_, _, ⟨_, _, ⟨_, _, ⟨_, hdbPath, rfl⟩, htitle, rfl⟩, hrepos, rfl⟩, hindexers,
      rfl⟩, hhealth, rfl⟩

theorem optional_of_reordered {before after repos repos' : List (List Char × Json)}
    {key : List Char} {bs : List (Text × Repository)} (hkeys : (Entries.keys repos).Nodup)
    (hperm : repos.Perm repos')
    (h : Schema.optional ConfigOf.reposField [] (nullableMap Repository.decode)
      (keyed (before ++ (key, object repos) :: after)) = .accepted bs) :
    ∃ bs', Schema.optional ConfigOf.reposField [] (nullableMap Repository.decode)
      (keyed (before ++ (key, object repos') :: after)) = .accepted bs' ∧ bs'.Perm bs := by
  have hfound : AreFoundAlike (fun _ v w => v = object repos ∧ w = object repos')
      ConfigOf.reposField
      (find? ConfigOf.reposField (keyed (before ++ (key, object repos) :: after)))
      (find? ConfigOf.reposField (keyed (before ++ (key, object repos') :: after))) :=
    areFoundAlike_inside ⟨rfl, rfl⟩
  unfold Schema.optional at h ⊢
  generalize find? ConfigOf.reposField (keyed (before ++ (key, object repos) :: after)) = x
    at hfound h
  generalize find? ConfigOf.reposField (keyed (before ++ (key, object repos') :: after)) = y
    at hfound ⊢
  cases hfound with
  | none => exact ⟨bs, h, .refl _⟩
  | some hfound =>
    simp only [Decoded.under_accepted_iff] at h ⊢
    -- A later entry of the same name may be found instead, which is in both.
    rcases hfound.2.2 with heq | ⟨hv, hw⟩
    · exact ⟨bs, heq ▸ h, .refl _⟩
    · rw [hv] at h
      rw [hw]
      exact nullableMap_of_perm hkeys hperm h

theorem decode_of_reordered (h : ReposReordered v w) (hc : decode v = .accepted c) :
    ∃ repos, repos.Perm c.repos ∧ decode w = .accepted { c with repos := repos } := by
  cases h with
  | same => exact ⟨c.repos, .refl _, hc⟩
  | @reorder before after repos repos' key hkey hkeys hperm =>
    rw [decode_object_iff] at hc
    obtain ⟨hdbPath, htitle, hrepos, hindexers, hhealth⟩ := hc
    have hother : ∀ {β : Type} (field : FieldName) (absent : β) (read : Json → Decoded β),
        field ∈ ConfigOf.fields → field ≠ ConfigOf.reposField →
        Schema.optional field absent read (keyed (before ++ (key, object repos') :: after))
          = Schema.optional field absent read (keyed (before ++ (key, object repos) :: after)) := by
      intro β field absent read hfield hne
      have hnames : ¬ field.Names (.ofChars key) := fun hname =>
        hne (ConfigOf.areTellable_fields.eq_of_names (by decide) hfield hkey hname)
      unfold Schema.optional
      rw [find?_insert_of_ne hnames, find?_insert_of_ne hnames]
    obtain ⟨bs, hbs, hread⟩ := optional_of_reordered hkeys hperm hrepos
    refine ⟨bs, hread, decode_object_iff.2 ⟨?_, ?_, hbs, ?_, ?_⟩⟩
    · rw [hother _ _ _ (by decide) (by decide), hdbPath]
    · rw [hother _ _ _ (by decide) (by decide), htitle]
    · rw [hother _ _ _ (by decide) (by decide), hindexers]
    · rw [hother _ _ _ (by decide) (by decide), hhealth]

theorem sortedRepos_of_perm (hc : (Entries.keys c.repos).Nodup) (h : d.repos.Perm c.repos) :
    d.sortedRepos = c.sortedRepos := by
  refine List.Perm.eq_of_pairwise ?_ d.pairwise_sortedRepos c.pairwise_sortedRepos
    (d.perm_sortedRepos.trans (h.trans c.perm_sortedRepos.symm))
  intro a b ha hb hab hba
  -- The names are equal then, and no two entries have one name.
  have ha' : a ∈ c.repos := h.mem_iff.1 (d.perm_sortedRepos.mem_iff.1 ha)
  have hb' : b ∈ c.repos := c.perm_sortedRepos.mem_iff.1 hb
  exact List.inj_on_of_nodup_map hc ha' hb' (Text.le_antisymm hab hba)

variable {files files' : Files} {name name' : Text} {a b : ByteArray}

/-- Only the order of the repositories is loaded differently, and where the database is. -/
theorem load_of_reordered (hread : files.read (Path.ofText name).toText = .ok a)
    (hread' : files'.read (Path.ofText name').toText = .ok b) (hv : ofBytes? a = some v)
    (hw : ofBytes? b = some w) (h : ReposReordered v w) (hc : load files name = .ok c)
    (hd : load files' name' = .ok d) :
    ∃ repos, repos.Perm c.repos ∧ d = { c with repos := repos, dbPath := d.dbPath } := by
  obtain ⟨c, place, hfile, -, rfl⟩ := exists_of_load hc
  obtain ⟨d, place', hfile', -, rfl⟩ := exists_of_load hd
  rw [ofFile_of_read hread hv] at hfile
  rw [ofFile_of_read hread' hw] at hfile'
  obtain ⟨repos, hperm, hdecode⟩ := decode_of_reordered h hfile
  obtain rfl := Decoded.accepted.inj (hfile'.symm.trans hdecode)
  exact ⟨_, hperm.map _, rfl⟩

/-- A file that is replaced by one with its repositories in another order is loaded as well, and the
database stays where it is. -/
theorem load_plant_of_reordered {place : List Text} (hat : files.at? place = some (.file a))
    (hlocate : files.locate (Path.ofText name).toText = .ok place) (hv : ofBytes? a = some v)
    (hw : ofBytes? b = some w) (h : ReposReordered v w) (hc : load files name = .ok c) :
    ∃ d, load (files.plant place (.file b)) name = .ok d ∧ d.dbPath = c.dbPath := by
  obtain ⟨hread, hread'⟩ := Files.read_plant_of_locate hat b hlocate
  obtain ⟨c, found, hfile, hfound, rfl⟩ := exists_of_load hc
  rw [ofFile_of_read hread hv] at hfile
  obtain ⟨repos, -, hdecode⟩ := decode_of_reordered h hfile
  have hresolve :
      resolveDbPath (files.plant place (.file b)) c.dbPath (.ofText name) = .ok found := by
    rw [← hfound]
    simp only [resolveDbPath, Files.canonical_plant hat b]
  refine ⟨{ normalized { c with repos := repos } with dbPath := found }, ?_, rfl⟩
  rw [load_of_ok ((ofFile_of_read hread' hw).2 hdecode)]
  simp only [hresolve]
  rfl

end Config

namespace Session

variable {s s' : Session} {path path' : Option Text} {c d : Config} {v w : Json}

/-- Does the file of a request hold the value? -/
def Reads (s : Session) (path : Option Text) (v : Json) : Prop :=
  ∃ bytes, s.files.read (Path.ofText (s.configPath path)).toText = .ok bytes
    ∧ ofBytes? bytes = some v

/-- Does another request find the same repositories listed, and if the database is at the same
place, give the same overview? -/
structure ListsAlike (s : Session) (path : Option Text) (c : Config) (s' : Session)
    (path' : Option Text) (d : Config) : Prop where
  listing : d.listing = c.listing
  repos : (s'.print (.repos path')).stdout = (s.print (.repos path)).stdout
  check : d.dbPath = c.dbPath →
    (s'.print (.check path')).stdout = (s.print (.check path)).stdout

theorem listsAlike_of_reordered (hc : Config.load s.files (s.configPath path) = .ok c)
    (hd : Config.load s'.files (s'.configPath path') = .ok d) (hv : s.Reads path v)
    (hw : s'.Reads path' w) (h : ReposReordered v w) : s.ListsAlike path c s' path' d := by
  obtain ⟨a, hread, hv⟩ := hv
  obtain ⟨b, hread', hw⟩ := hw
  obtain ⟨repos, hperm, hrepos⟩ := Config.load_of_reordered hread hread' hv hw h hc hd
  have hdperm : d.repos.Perm c.repos := by
    rw [hrepos]
    exact hperm
  have hsorted : d.sortedRepos = c.sortedRepos :=
    Config.sortedRepos_of_perm (Config.areWritable_of_load hc).distinct hdperm
  have hlisting : d.listing = c.listing := by rw [Config.listing, hsorted, Config.listing]
  refine ⟨hlisting, ?_, fun hdbPath => ?_⟩
  · obtain ⟨listing, entries, hlists⟩ := lists_of_load hc
    obtain ⟨listing', entries', hlists'⟩ := lists_of_load hd
    obtain ⟨stderr, hprint⟩ := hlists.printed
    obtain ⟨stderr', hprint'⟩ := hlists'.printed
    have hsame : listing' = listing :=
      Except.ok.inj (hlists'.written.symm.trans (hlisting.trans hlists.written))
    rw [hprint, hprint', hsame]
    rfl
  · have hoverview : Session.overview d = Session.overview c := by
      rw [Session.overview, Session.overview, hsorted, hdperm.length_eq, hdbPath, hrepos]
    have hnumbers : overviewNumbers d = overviewNumbers c := by
      rw [overviewNumbers, overviewNumbers, hsorted, hrepos]
    rw [print_of_ok hc rfl, print_of_ok hd rfl, printAnswer, printAnswer, Printout.stdout_ofLines,
      Printout.stdout_ofLines, overviewLines, hoverview, hnumbers, overviewLines]

/-- What is loaded is listed in the order of its names, each once, without control characters. Files
that differ in the order of the repositories only are listed alike, and a file can be replaced by
such a one. A run prints what the session prints that it is prepared with. -/
theorem listings_of_load (hc : Config.load s.files (s.configPath path) = .ok c) :
    (∃ listing entries, s.Lists path c listing entries)
    ∧ (∀ around timestamp words r, Command.prepare around timestamp words = .ok (s, r) →
        Command.print around timestamp words = s.print r)
    ∧ (∀ s' path' d v w, Config.load s'.files (s'.configPath path') = .ok d → s.Reads path v →
        s'.Reads path' w → ReposReordered v w → s.ListsAlike path c s' path' d)
    ∧ ∀ place a b v w, s.files.at? place = some (.file a) →
        s.files.locate (Path.ofText (s.configPath path)).toText = .ok place →
        ofBytes? a = some v → ofBytes? b = some w → ReposReordered v w →
        let s' : Session := { s with files := s.files.plant place (.file b) }
        ∃ d, Config.load s'.files (s'.configPath path) = .ok d ∧ d.dbPath = c.dbPath
          ∧ s.ListsAlike path c s' path d := by
  refine ⟨lists_of_load hc, fun around timestamp words r hprepare => ?_,
    fun s' path' d v w hd hv hw h => ?_, ?_⟩
  · rw [Command.print, hprepare]
  · exact listsAlike_of_reordered hc hd hv hw h
  · intro place a b v w hat hlocate hv hw h s'
    obtain ⟨hread, hread'⟩ := Files.read_plant_of_locate hat b hlocate
    obtain ⟨d, hd, hdbPath⟩ := Config.load_plant_of_reordered hat hlocate hv hw h hc
    have hpath : s'.configPath path = s.configPath path := rfl
    exact ⟨d, hd, hdbPath, listsAlike_of_reordered hc hd ⟨a, hread, hv⟩ ⟨b, hpath ▸ hread', hw⟩ h⟩

/-- Two repositories in the order in which they are given. -/
def pair (first second : Char) : Json :=
  .object [("dbpath".toList, .string "data".toList), ("repos".toList, .object [
    ([first], .object [("url".toList, .string ['u'])]),
    ([second], .object [("url".toList, .string ['u'])])])]

/-- The same repositories in two directories, in either order. -/
def apart : Session where
  files := ⟨[("a", .directory [("config.json", .file (pair 'x' 'y').toBytes)]),
    ("b", .directory [("config.json", .file (pair 'y' 'x').toBytes)])], [], 0⟩
  settings := ⟨"development", "INFO", "config.json"⟩
  logging := ⟨20, .console⟩
  timestamp := []
  stderr := []

theorem ofBytes?_pair (first second : Char) :
    ofBytes? (pair first second).toBytes = some (pair first second) :=
  ofBytes?_toBytes (by simp [pair, Each, EachEntry, ReadsBack])
    (by simp [pair, depth, depthOfEntries, maxNesting])

theorem reads_apart : apart.Reads (some "a/config.json") (pair 'x' 'y')
    ∧ apart.Reads (some "b/config.json") (pair 'y' 'x') :=
  ⟨⟨_, rfl, ofBytes?_pair 'x' 'y'⟩, ⟨_, rfl, ofBytes?_pair 'y' 'x'⟩⟩

theorem load_apart : ∃ c d, Config.load apart.files "a/config.json" = .ok c
    ∧ Config.load apart.files "b/config.json" = .ok d ∧ c.title = "Hound" ∧ d.title = "Hound"
    ∧ c.dbPath = "/a/data" ∧ d.dbPath = "/b/data" := by
  have hc : Config.ofFile apart.files (.ofText "a/config.json") = .ok ⟨"data", [], _, 0, []⟩ :=
    (Config.ofFile_of_read rfl (ofBytes?_pair 'x' 'y')).2 rfl
  have hd : Config.ofFile apart.files (.ofText "b/config.json") = .ok ⟨"data", [], _, 0, []⟩ :=
    (Config.ofFile_of_read rfl (ofBytes?_pair 'y' 'x')).2 rfl
  exact ⟨_, _, Config.load_of_ok hc, Config.load_of_ok hd, rfl, rfl, rfl, rfl⟩

theorem reordered_pair : ReposReordered (pair 'x' 'y') (pair 'y' 'x') :=
  @ReposReordered.reorder [("dbpath".toList, .string "data".toList)] [] _ _ "repos".toList
    (by decide) (by decide) (.swap _ _ _)

/-- Both files are listed alike, and so is one of them when it is put in the place of the other. -/
theorem listings_of_load_pair : ∃ c d, Config.load apart.files "a/config.json" = .ok c
    ∧ Config.load apart.files "b/config.json" = .ok d
    ∧ (∃ listing entries, apart.Lists (some "a/config.json") c listing entries)
    ∧ apart.ListsAlike (some "a/config.json") c apart (some "b/config.json") d
    ∧ ∃ d', Config.load (apart.files.plant ["a", "config.json"] (.file (pair 'y' 'x').toBytes))
        "a/config.json" = .ok d' ∧ d'.dbPath = c.dbPath := by
  obtain ⟨c, d, hc, hd, -⟩ := load_apart
  obtain ⟨hlists, -, halike, hreplaced⟩ := @listings_of_load apart (some "a/config.json") c hc
  obtain ⟨d', hd', hdbPath, -⟩ := hreplaced ["a", "config.json"] _ _ _ _ rfl rfl
    (ofBytes?_pair 'x' 'y') (ofBytes?_pair 'y' 'x') reordered_pair
  exact ⟨c, d, hc, hd, hlists,
    halike apart (some "b/config.json") d _ _ hd reads_apart.1 reads_apart.2 reordered_pair,
    d', hd', hdbPath⟩

/-- The name of a directory that is not UTF-8. -/
def garbledName : Text := [.scalar 'c', .surrogate ⟨0x4FF, by decide⟩]

def garbledPath : Text := garbledName ++ ("/config.json" : Text)

/-- Two repositories in that directory. -/
def garbled : Session :=
  { apart with files :=
      ⟨[(garbledName, .directory [("config.json", .file (pair 'x' 'y').toBytes)])], [], 0⟩ }

theorem load_garbled : ∃ c, Config.load garbled.files garbledPath = .ok c ∧ c.title = "Hound"
    ∧ c.repos.length = 2 ∧ ¬ c.dbPath.IsScalar := by
  have hc : Config.ofFile garbled.files (.ofText garbledPath) = .ok ⟨"data", [], _, 0, []⟩ :=
    (Config.ofFile_of_read rfl (ofBytes?_pair 'x' 'y')).2 rfl
  refine ⟨_, Config.load_of_ok hc, rfl, rfl, fun hscalar => ?_⟩
  have hnone := Text.loneSurrogates?_eq_none_iff.2 hscalar
  cases hnone

/-- The overviews differ in the place of the database, which is taken from the directory of the
file. And there is no entry in the overview if that place cannot be encoded. -/
theorem overviews_apart : ((∃ c, Config.load apart.files "a/config.json" = .ok c)
    ∧ (∃ d, Config.load apart.files "b/config.json" = .ok d)
    ∧ apart.Reads (some "a/config.json") (pair 'x' 'y')
    ∧ apart.Reads (some "b/config.json") (pair 'y' 'x')
    ∧ ReposReordered (pair 'x' 'y') (pair 'y' 'x')
    ∧ (apart.print (.check (some "a/config.json"))).stdout
      ≠ (apart.print (.check (some "b/config.json"))).stdout)
    ∧ ∃ c, Config.load garbled.files garbledPath = .ok c ∧ c.repos.length = 2
      ∧ (garbled.print (.check (some garbledPath))).exitCode = 1
      ∧ (garbled.print (.check (some garbledPath))).stdout = "Hound\n" := by
  refine ⟨?_, ?_⟩
  · obtain ⟨c, d, hc, hd, htitle, htitle', hdbPath, hdbPath'⟩ := load_apart
    refine ⟨⟨c, hc⟩, ⟨d, hd⟩, reads_apart.1, reads_apart.2, reordered_pair, fun heq => ?_⟩
    have hc' : c.IsWritable := Config.isWritable_withDbPath_of_load hc (hdbPath ▸ ⟨_, rfl⟩)
    have hd' : d.IsWritable := Config.isWritable_withDbPath_of_load hd (hdbPath' ▸ ⟨_, rfl⟩)
    rw [@print_of_ok apart (some "a/config.json") c hc _ rfl,
      @print_of_ok apart (some "b/config.json") d hd _ rfl, printAnswer_check _ hc',
      printAnswer_check _ hd'] at heq
    have hlines : (Session.overview c).flatMap Outcome.echo
        = (Session.overview d).flatMap Outcome.echo := heq
    simp only [Session.overview, List.cons_append, List.flatMap_cons, htitle, htitle', hdbPath,
      hdbPath', List.append_cancel_left_eq] at hlines
    have hline : Outcome.echo ("  DB path:       " ++ "/a/data")
        = Outcome.echo ("  DB path:       " ++ "/b/data") := (List.append_inj hlines (by decide)).1
    revert hline
    decide
  · obtain ⟨c, hc, htitle, hlength, hdbPath⟩ := load_garbled
    obtain ⟨listing, entries, hlists⟩ := @lists_of_load garbled (some garbledPath) c hc
    obtain ⟨stderr, run, hprint⟩ := hlists.broken hdbPath
    rw [hprint, htitle]
    exact ⟨c, hc, hlength, rfl, rfl⟩

end Session

end SearchConfig
