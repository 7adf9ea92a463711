import SearchConfig.Proofs.Filled
import SearchConfig.Proofs.NameOrder
import SearchConfig.Proofs.RoundTrip

/-!
# Loading what was listed

What is loaded can be listed, since everything in it was read or is a default, and its database path
is Unicode if the names along which it is found are. A second file that holds just the database path
and the listing is loaded as the same repositories, veiled and in the order of their names: they are
filled already, and so the defaults leave them as they are (`Config.load_reload`).
-/

namespace SearchConfig

/-- Is the code point a scalar value? -/
def CodePoint.IsScalar (c : CodePoint) : Prop := ∃ ch, c = .scalar ch

theorem CodePoint.suitsPaths_isScalar : SuitsPaths IsScalar := ⟨⟨_, rfl⟩, ⟨_, rfl⟩⟩

theorem Text.isScalar_iff (t : Text) : t.IsScalar ↔ t.MadeOf CodePoint.IsScalar := by
  constructor
  · rintro ⟨cs, rfl⟩ c hc
    obtain ⟨ch, -, rfl⟩ := List.mem_map.1 hc
    exact ⟨ch, rfl⟩
  · intro h
    induction t with
    | nil => exact ⟨[], rfl⟩
    | cons c t ih =>
      obtain ⟨⟨ch, rfl⟩, ht⟩ := (madeOf_cons c t).1 h
      obtain ⟨cs, rfl⟩ := ih ht
      exact ⟨ch :: cs, rfl⟩

section Defaults

open Defaults

theorem isScalar_orText {default t : Text} (hdefault : default.IsScalar) (ht : t.IsScalar) :
    (orText default t).IsScalar := by
  unfold orText
  split
  · exact hdefault
  · exact ht

theorem UrlPattern.isWritable_completed {p : UrlPattern} (h : p.IsWritable) :
    p.completed.IsWritable :=
  ⟨isScalar_orText ⟨_, rfl⟩ h.baseUrl, isScalar_orText ⟨_, rfl⟩ h.anchor⟩

theorem Defaults.isWritable_patternFor (url : Text) : (patternFor url).IsWritable := by
  unfold patternFor
  split
  · exact ⟨⟨_, rfl⟩, ⟨_, rfl⟩⟩
  · exact ⟨⟨_, rfl⟩, ⟨_, rfl⟩⟩

theorem Repository.isWritable_normalized {r : Repository} (h : r.IsWritable) :
    r.normalized.IsWritable where
  url := h.url
  msBetweenPoll := by
    change Digits.isWritable (orNumber Defaults.msBetweenPoll r.msBetweenPoll) = true
    unfold orNumber
    split
    · decide
    · exact h.msBetweenPoll
  vcs := isScalar_orText ⟨_, rfl⟩ h.vcs
  urlPattern p hp := by
    obtain rfl := Option.some.inj hp
    split
    · exact Defaults.isWritable_patternFor r.url
    · rename_i pattern hpattern
      exact UrlPattern.isWritable_completed (h.urlPattern pattern hpattern)

end Defaults

theorem Repository.IsFilled.veiled {r : Repository} (h : r.IsFilled) : r.veiled.IsFilled :=
  ⟨h.msBetweenPoll, h.vcs, h.urlPattern⟩

theorem Files.madeOf_single {P : CodePoint → Prop} (name : Text) (bytes : ByteArray) :
    (single name bytes).MadeOf P where
  targets place target h := absurd h (at?_single_ne_link place target)
  workingDirectory := by simp [single]

namespace Config

variable {files : Files} {name : Text} {c d : Config}

theorem AreWritable.normalized {repos : List (Text × Repository)} (h : AreWritable repos) :
    AreWritable (Entries.mapValues Repository.normalized repos) where
  distinct := by
    rw [Entries.keys_mapValues]
    exact h.distinct
  each entry hentry := by
    obtain ⟨⟨k, r⟩, hmem, rfl⟩ := List.mem_map.1 hentry
    exact ⟨(h.each _ hmem).1, Repository.isWritable_normalized (h.each _ hmem).2⟩

theorem AreWritable.perm {repos repos' : List (Text × Repository)} (h : AreWritable repos)
    (hperm : repos'.Perm repos) : AreWritable repos' where
  distinct := (hperm.map Prod.fst).nodup_iff.2 h.distinct
  each entry hentry := h.each entry (hperm.mem_iff.1 hentry)

/-- What a file holds can be written. -/
theorem isWritable_of_ofFile {path : Path} (h : ofFile files path = .ok d) : d.IsWritable := by
  unfold ofFile at h
  split at h
  · cases h
  · cases h
  · split at h
    · cases h
    · rename_i hdecode
      obtain rfl := Except.ok.inj h
      unfold Decoded.ofBytes at hdecode
      split at hdecode
      · rename_i hread
        exact isWritable_of_decode (Json.integersWithinLimit_of_ofBytes? hread) hdecode
      · cases hdecode

theorem areWritable_of_load (h : load files name = .ok c) : AreWritable c.repos := by
  obtain ⟨d, place, hfile, -, rfl⟩ := exists_of_load h
  exact (isWritable_of_ofFile hfile).repos.normalized

/-- The place of a database is Unicode if all is along which it is found. -/
theorem isScalar_of_resolveDbPath (hfiles : files.MadeOf CodePoint.IsScalar)
    (hname : name.IsScalar) {dbPath place : Text} (hdbPath : dbPath.IsScalar)
    (h : resolveDbPath files dbPath (.ofText name) = .ok place) : place.IsScalar := by
  rcases habsolute : (Path.ofText dbPath).isAbsolute
  swap
  · rw [resolveDbPath_of_isAbsolute _ habsolute] at h
    obtain rfl := Except.ok.inj h
    exact hdbPath
  · have hsuits := CodePoint.suitsPaths_isScalar
    have hparts : ∀ {t : Text}, t.IsScalar →
        ∀ part ∈ (Path.ofText t).parts, part.MadeOf CodePoint.IsScalar := fun {t} ht =>
      (Path.madeOf_toText_iff hsuits _).1
        ((Path.madeOf_toText_ofText_iff hsuits t).2 ((Text.isScalar_iff t).1 ht))
    have hpath : ∀ part ∈ ((Path.ofText name).parent.append (.ofText dbPath)).parts,
        part.MadeOf CodePoint.IsScalar := by
      unfold Path.append
      split
      · exact hparts hdbPath
      · refine List.forall_mem_append.2 ⟨fun part hpart => ?_, hparts hdbPath⟩
        exact hparts hname part (List.dropLast_subset _ hpart)
    rw [resolveDbPath_ok_iff _ habsolute] at h
    exact (Text.isScalar_iff _).2 (Files.madeOf_of_canonical hsuits hfiles hpath h)

theorem isScalar_dbPath_of_load (hfiles : files.MadeOf CodePoint.IsScalar) (hname : name.IsScalar)
    (h : load files name = .ok c) : c.dbPath.IsScalar := by
  obtain ⟨d, place, hfile, hplace, rfl⟩ := exists_of_load h
  exact isScalar_of_resolveDbPath hfiles hname (isWritable_of_ofFile hfile).dbPath hplace

/-- The value with nothing but a database path and repositories. -/
def reloadable (dbPath : List Char) (repos : Json) : Json :=
  .object [("dbpath".toList, .string dbPath), ("repos".toList, repos)]

/-- The text with nothing but a database path and a listing put in as it is. -/
def reloadText (dbPath : List Char) (listing : Text) : Text :=
  "\x7b\"dbpath\":" ++ Text.ofChars (Json.printString .compact dbPath) ++ ",\"repos\":" ++ listing
    ++ "\x7d"

theorem reloadText_eq (dbPath : List Char) (repos : Json) :
    reloadText dbPath (.ofChars (repos.print .compact))
      = .ofChars ((reloadable dbPath repos).print .compact) := by
  simp only [reloadText, reloadable, Json.print, Json.printEntries, Text.ofString, Text.ofChars,
    ← List.map_append]
  congr 1
  have hdbPath : Json.printString .compact "dbpath".toList = "\"dbpath\"".toList := by decide
  have hrepos : Json.printString .compact "repos".toList = "\"repos\"".toList := by decide
  rw [hdbPath, hrepos]
  simp [Json.Style.compact]

theorem decode_reloadable (dbPath : List Char) {json : Json} {repos : List (Text × Repository)}
    (h : Schema.nullableMap Repository.decode json = .accepted repos) :
    Config.decode (reloadable dbPath json) = .accepted ⟨.ofChars dbPath, [], repos, 0, []⟩ := by
  have hdecode : Config.decode (reloadable dbPath json)
      = ConfigOf.mk
        <$> .accepted (.ofChars dbPath)
        <*> .accepted []
        <*> (Schema.nullableMap Repository.decode json).under (.key "repos")
        <*> .accepted 0
        <*> .accepted [] := rfl
  rw [hdecode, h]
  rfl

/-- Has the first configuration the repositories of the second, veiled and in the order of their
names, and are they listed and linked to alike? -/
structure IsReloadOf (d c : Config) : Prop where
  dbPath : d.dbPath = c.dbPath
  sorted : d.repos.Pairwise fun a b => a.1.le b.1 = true
  repos : d.repos.Perm (Entries.mapValues Repository.veiled c.repos)
  listing : d.listing = c.listing
  links : ∀ name r, (name, r) ∈ c.repos → ∃ r' linker linker', (name, r') ∈ d.repos
    ∧ Linker.ofRepository r = .ok linker ∧ Linker.ofRepository r' = .ok linker'
    ∧ ∀ path line, linker'.link? path line = linker.link? path line

theorem isReloadOf_of_repos (hc : c.IsFilled) (hdbPath : d.dbPath = c.dbPath)
    (hrepos : d.repos = Entries.mapValues Repository.veiled c.sortedRepos) : d.IsReloadOf c where
  dbPath := hdbPath
  sorted := by
    rw [hrepos]
    exact List.pairwise_map.2 c.pairwise_sortedRepos
  repos := by
    rw [hrepos]
    exact c.perm_sortedRepos.map _
  listing := by
    have hsorted : d.sortedRepos = d.repos := ConfigOf.sortedRepos_of_pairwise (by
      rw [hrepos]
      exact List.pairwise_map.2 c.pairwise_sortedRepos)
    rw [listing, hsorted, hrepos, reposDocument_veiled, listing]
  links name r hr := by
    obtain ⟨linker, hlinker⟩ := (hc.repos _ hr).linker
    refine ⟨r.veiled, linker, linker, ?_, hlinker, hlinker, fun _ _ => rfl⟩
    rw [hrepos]
    exact List.mem_map.2 ⟨(name, r), c.perm_sortedRepos.mem_iff.2 hr, rfl⟩

/-- What is filled and absolute is loaded as it is. -/
theorem load_reloadable {files : Files} {name : Text} {bytes : ByteArray} {dbPath : List Char}
    {json : Json} {repos : List (Text × Repository)}
    (hread : files.read (Path.ofText name).toText = .ok bytes)
    (hjson : Json.ofBytes? bytes = some (reloadable dbPath json))
    (hdecode : Schema.nullableMap Repository.decode json = .accepted repos)
    (hfilled : ∀ entry ∈ repos, entry.2.IsFilled)
    (habsolute : (Path.ofText (.ofChars dbPath)).isAbsolute = true) :
    ∃ d, load files name = .ok d ∧ d.dbPath = .ofChars dbPath ∧ d.repos = repos := by
  have hfile : ofFile files (.ofText name) = .ok ⟨.ofChars dbPath, [], repos, 0, []⟩ := by
    refine ofFile_of_accepted hread ?_
    rw [Decoded.ofBytes, hjson]
    exact decode_reloadable dbPath hdecode
  have hplace : resolveDbPath files (.ofChars dbPath) (.ofText name) = .ok (.ofChars dbPath) :=
    if_pos habsolute
  refine ⟨_, by rw [load_of_ok hfile, hplace]; rfl, rfl, ?_⟩
  have hsame : repos.map (fun entry => (entry.1, entry.2.normalized)) = repos.map id :=
    List.map_congr_left fun entry hentry =>
      Prod.ext rfl (Repository.normalized_of_isFilled (hfilled entry hentry))
  exact hsame.trans (List.map_id repos)

/-- What is loaded is loaded again from its database path and its listing. -/
theorem load_reload (hfiles : files.MadeOf CodePoint.IsScalar) (hname : name.IsScalar)
    (h : load files name = .ok c) :
    ∃ dbPath listing second, c.dbPath = .ofChars dbPath ∧ c.listing = .ok listing
      ∧ (reloadText dbPath listing).encode = .ok second
      ∧ ∀ files' name' bytes, files'.read (Path.ofText name').toText = .ok bytes →
        Json.ofBytes? bytes = Json.ofBytes? second →
        ∃ d, load files' name' = .ok d ∧ d.IsReloadOf c := by
  have hc := isFilled_of_load h
  obtain ⟨dbPath, hdbPath⟩ := isScalar_dbPath_of_load hfiles hname h
  obtain ⟨json, ⟨hjson, hback, hshallow⟩, hdecode⟩ :=
    reposDecodesTo_nullable ((areWritable_of_load h).perm c.perm_sortedRepos)
  have hlisting : c.listing = .ok (.ofChars (json.print .compact)) := by
    rw [listing, Document.print, hjson]
    rfl
  have hsecond : (reloadText dbPath (.ofChars (json.print .compact))).encode
      = .ok (reloadable dbPath json).toBytes := by
    rw [reloadText_eq]
    exact Text.encode_ofChars _
  -- The second file may be laid out otherwise: just its value decides what is loaded.
  refine ⟨dbPath, _, _, hdbPath, hlisting, hsecond, fun files' name' bytes hread hbytes => ?_⟩
  have hreload : Json.ofBytes? (reloadable dbPath json).toBytes
      = some (reloadable dbPath json) := by
    refine Json.ofBytes?_toBytes ⟨trivial, hback, trivial⟩ ?_
    have hdepth : (reloadable dbPath json).depth = max 1 (max (json.depth + 1) 0) := rfl
    have hmax : Json.maxNesting = 200 := rfl
    omega
  rw [hreload] at hbytes
  have hfilled : ∀ entry ∈ Entries.mapValues Repository.veiled c.sortedRepos,
      entry.2.IsFilled := by
    intro entry hentry
    obtain ⟨⟨k, r⟩, hr, rfl⟩ := List.mem_map.1 hentry
    exact (hc.repos _ (c.perm_sortedRepos.mem_iff.1 hr)).veiled
  obtain ⟨d, hload, hd, hrepos⟩ := load_reloadable hread hbytes hdecode hfilled
    (hdbPath ▸ hc.dbPath)
  exact ⟨d, hload, isReloadOf_of_repos hc (hd.trans hdbPath.symm) hrepos⟩

/-- A configuration with a secret and with names out of order. -/
def unsorted : Json :=
  .object [("dbpath".toList, .string ['/']), ("repos".toList, .object [
    ("b".toList, .object [("url".toList, .string ['u']), ("vcs-config".toList, .int 7)]),
    ("a".toList, .object [("url".toList, .string ['v'])])])]

theorem load_reload_unsorted : ∃ c second d,
    load (.single "config.json" unsorted.toBytes) "config.json" = .ok c
      ∧ load (.single "second.json" second) "second.json" = .ok d ∧ d.IsReloadOf c := by
  have hread : Json.ofBytes? unsorted.toBytes = some unsorted := by
    refine Json.ofBytes?_toBytes ?_ (by decide)
    simp [unsorted, Json.Each, Json.EachEntry, Json.ReadsBack, Digits.isWritable]
    decide
  have hfile : ofFile (.single "config.json" unsorted.toBytes) (.ofText "config.json")
      = .ok ⟨"/", [], [("b", ⟨"u", 0, [], some ⟨⟨#[0x37]⟩⟩, none, false, none, none⟩),
        ("a", ⟨"v", 0, [], none, none, false, none, none⟩)], 0, []⟩ := by
    refine ofFile_of_accepted rfl ?_
    rw [Decoded.ofBytes, hread]
    rfl
  have hload := load_of_ok hfile
  obtain ⟨dbPath, listing, second, -, -, -, hreload⟩ :=
    load_reload (Files.madeOf_single _ _) ⟨"config.json".toList, rfl⟩ hload
  obtain ⟨d, hd, hreloads⟩ := hreload (.single "second.json" second) "second.json" second rfl rfl
  exact ⟨_, second, d, hload, hd, hreloads⟩

end Config

end SearchConfig
