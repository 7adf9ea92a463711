import Mathlib.Data.List.Forall2
import SearchConfig.Proofs.Masking
import SearchConfig.Proofs.Writable

/-!
# Decoding what is written

A record that can be written is written as JSON that reads back and is decoded as the veiled record:
part by part, since an object is written as the object of its written parts (`Writes.object`). What
is decoded from a file can be written, so decoding undoes writing up to masking, for
configurations, repositories, patterns and maps of repositories (`decode_undoes_document`).
-/

namespace SearchConfig

open Json Schema

/-- The document is written as the given value, which reads back and has containers at most `depth`
deep around its parts. -/
structure Document.Writes (depth : Nat) (d : Document) (v : Json) : Prop where
  toJson : d.toJson = .ok v
  readsBack : Each ReadsBack v
  shallow : v.depth ≤ depth

/-- The document is written as a value that is decoded as the given record. -/
def Document.DecodesTo {β : Type} (decode : Json → Decoded β) (depth : Nat) (d : Document) (b : β) :
    Prop :=
  ∃ v, d.Writes depth v ∧ decode v = .accepted b

namespace Document.Writes

variable {depth : Nat}

theorem null : Document.null.Writes depth .null := ⟨rfl, trivial, Nat.zero_le _⟩

theorem truth (b : Bool) : (Document.truth b).Writes depth (.bool b) := ⟨rfl, trivial, Nat.zero_le _⟩

theorem integer {n : Int} (h : Digits.isWritable n = true) :
    (Document.integer n).Writes depth (.int n) := ⟨rfl, h, Nat.zero_le _⟩

theorem text (cs : List Char) : (Document.text (.ofChars cs)).Writes depth (.string cs) := by
  refine ⟨?_, trivial, Nat.zero_le _⟩
  rw [Document.toJson, Text.characters_ofChars]
  rfl

theorem print {d : Document} {v : Json} (h : d.Writes depth v) :
    d.print = .ok (.ofChars (v.print .compact)) := by
  rw [Document.print, h.toJson]
  rfl

/-- An object is written as the object of its written parts. -/
theorem object {parts : List (Text × Document)} {entries : List (List Char × Json)}
    (h : List.Forall₂ (fun part entry => part.1.legible = entry.1 ∧ part.2.Writes depth entry.2)
      parts entries) : (Document.object parts).Writes (depth + 1) (.object entries) := by
  have hparts : Document.toJsonParts parts = .ok entries ∧ EachEntry ReadsBack entries
      ∧ depthOfEntries entries ≤ depth + 1 := by
    induction h with
    | nil => exact ⟨rfl, trivial, Nat.zero_le _⟩
    | @cons part entry parts entries h _ ih =>
      obtain ⟨name, d⟩ := part
      obtain ⟨key, v⟩ := entry
      obtain ⟨hname, hjson, hv, hdepth⟩ := h
      obtain ⟨hjsons, hvs, hdepths⟩ := ih
      simp only [] at hname hjson hv hdepth
      refine ⟨?_, ⟨hv, hvs⟩, Nat.max_le.2 ⟨Nat.succ_le_succ hdepth, hdepths⟩⟩
      rw [Document.toJsonParts, hjson, hjsons, hname]
      rfl
  obtain ⟨hjson, hv, hdepth⟩ := hparts
  refine ⟨?_, hv, hdepth⟩
  rw [Document.toJson, hjson]
  rfl

end Document.Writes

namespace Document.DecodesTo

variable (depth : Nat)

theorem text {t : Text} (h : t.IsScalar) : (Document.text t).DecodesTo Schema.text depth t := by
  obtain ⟨cs, rfl⟩ := h
  exact ⟨.string cs, .text cs, rfl⟩

theorem integer {n : Int} (h : Digits.isWritable n = true) :
    (Document.integer n).DecodesTo Schema.integer depth n := ⟨.int n, .integer h, rfl⟩

theorem truth (b : Bool) : (Document.truth b).DecodesTo Schema.truth depth b :=
  ⟨.bool b, .truth b, rfl⟩

theorem strictTruth (b : Bool) : (Document.truth b).DecodesTo Schema.strictTruth depth b :=
  ⟨.bool b, .truth b, rfl⟩

theorem secret (s : Secret) : s.document.DecodesTo Schema.secret (depth + 1) .veil :=
  ⟨.object [], .object .nil, congrArg Decoded.accepted Secret.ofJson_masked⟩

/-- A part that may be absent is decoded as it was written. -/
theorem ofOption {α β : Type} {write : α → Document} {read : Json → Decoded β} {f : α → β}
    {o : Option α} (hnull : ∀ b, read .null ≠ .accepted b)
    (h : ∀ a ∈ o, (write a).DecodesTo read depth (f a)) :
    (Document.ofOption write o).DecodesTo (nullable read) depth (o.map f) := by
  rcases o with _ | a
  · exact ⟨.null, .null, rfl⟩
  · obtain ⟨v, hwrites, hread⟩ := h a rfl
    refine ⟨v, hwrites, ?_⟩
    rcases v with _ | _ | _ | _ | _ | _ | _
    · exact absurd hread (hnull _)
    all_goals exact Decoded.map_accepted_iff.2 ⟨_, hread, rfl⟩

end Document.DecodesTo

namespace UrlPattern

/-- The written form of a pattern with the given templates. -/
def json (baseUrl anchor : List Char) : Json :=
  .object [("base-url".toList, .string baseUrl), ("anchor".toList, .string anchor)]

theorem decode_json (baseUrl anchor : List Char) :
    UrlPattern.decode (json baseUrl anchor) = .accepted ⟨.ofChars baseUrl, .ofChars anchor⟩ := rfl

theorem decodesTo {p : UrlPattern} (h : p.IsWritable) :
    (p.document .outer).DecodesTo UrlPattern.decode 1 p := by
  obtain ⟨_, _⟩ := p
  obtain ⟨⟨baseUrl, rfl⟩, ⟨anchor, rfl⟩⟩ := h
  refine ⟨json baseUrl anchor, .object ?_, decode_json baseUrl anchor⟩
  exact .cons ⟨rfl, .text baseUrl⟩ (.cons ⟨rfl, .text anchor⟩ .nil)

end UrlPattern

namespace Repository

theorem decode_object (url ms vcs config pattern dot poll push : Json) :
    Repository.decode (Json.object [("url".toList, url), ("ms-between-poll".toList, ms),
        ("vcs".toList, vcs), ("vcs-config".toList, config), ("url-pattern".toList, pattern),
        ("exclude-dot-files".toList, dot), ("enable-poll-updates".toList, poll),
        ("enable-push-updates".toList, push)])
      = RepositoryOf.mk
        <$> (text url).under (.key "url")
        <*> (integer ms).under (.key "ms-between-poll")
        <*> (text vcs).under (.key "vcs")
        <*> (nullable secret config).under (.key "vcs-config")
        <*> (nullable UrlPattern.decode pattern).under (.key "url-pattern")
        <*> (Schema.truth dot).under (.key "exclude-dot-files")
        <*> (nullable strictTruth poll).under (.key "enable-poll-updates")
        <*> (nullable strictTruth push).under (.key "enable-push-updates") := rfl

theorem decodesTo {r : Repository} (h : r.IsWritable) :
    (r.document .outer).DecodesTo Repository.decode 2 r.veiled := by
  obtain ⟨url, hurl, hurlRead⟩ := Document.DecodesTo.text 1 h.url
  obtain ⟨ms, hms, hmsRead⟩ := Document.DecodesTo.integer 1 h.msBetweenPoll
  obtain ⟨vcs, hvcs, hvcsRead⟩ := Document.DecodesTo.text 1 h.vcs
  obtain ⟨config, hconfig, hconfigRead⟩ := Document.DecodesTo.ofOption 1
    (o := r.vcsConfig) (by simp [Schema.secret, Source.capture, capture, Decoded.fail])
    fun s _ => Document.DecodesTo.secret 0 s
  obtain ⟨pattern, hpattern, hpatternRead⟩ := Document.DecodesTo.ofOption 1
    (f := id) (by intro p hp; cases hp) fun p hp => UrlPattern.decodesTo (h.urlPattern p hp)
  obtain ⟨dot, hdot, hdotRead⟩ := Document.DecodesTo.truth 1 r.excludeDotFiles
  obtain ⟨poll, hpoll, hpollRead⟩ := Document.DecodesTo.ofOption 1
    (o := r.enablePollUpdates) (f := id) (by intro b hb; cases hb)
    fun b _ => Document.DecodesTo.strictTruth 1 b
  obtain ⟨push, hpush, hpushRead⟩ := Document.DecodesTo.ofOption 1
    (o := r.enablePushUpdates) (f := id) (by intro b hb; cases hb)
    fun b _ => Document.DecodesTo.strictTruth 1 b
  refine ⟨.object [("url".toList, url), ("ms-between-poll".toList, ms), ("vcs".toList, vcs),
    ("vcs-config".toList, config), ("url-pattern".toList, pattern),
    ("exclude-dot-files".toList, dot), ("enable-poll-updates".toList, poll),
    ("enable-push-updates".toList, push)], .object ?_, ?_⟩
  · exact .cons ⟨rfl, hurl⟩ <| .cons ⟨rfl, hms⟩ <| .cons ⟨rfl, hvcs⟩ <| .cons ⟨rfl, hconfig⟩ <|
      .cons ⟨rfl, hpattern⟩ <| .cons ⟨rfl, hdot⟩ <| .cons ⟨rfl, hpoll⟩ <| .cons ⟨rfl, hpush⟩ .nil
  · rw [decode_object, hurlRead, hmsRead, hvcsRead, hconfigRead, hpatternRead, hdotRead, hpollRead,
      hpushRead, Option.map_id, Option.map_id]
    rfl

end Repository

namespace Config

/-- The entry of an object that an entry of a map is written as. -/
structure WrittenAs (entry : Text × Repository) (written : List Char × Json) : Prop where
  name : entry.1 = .ofChars written.1
  writes : (entry.2.document .outer).Writes 2 written.2
  decodes : Repository.decode written.2 = .accepted entry.2.veiled

variable {repos : List (Text × Repository)} {entries : List (List Char × Json)}

theorem exists_written (h : ∀ entry ∈ repos, entry.1.IsScalar ∧ entry.2.IsWritable) :
    ∃ entries, List.Forall₂ WrittenAs repos entries := by
  induction repos with
  | nil => exact ⟨[], .nil⟩
  | cons entry repos ih =>
    rw [List.forall_mem_cons] at h
    obtain ⟨⟨⟨cs, hcs⟩, hr⟩, hrepos⟩ := h
    obtain ⟨v, hwrites, hdecodes⟩ := Repository.decodesTo hr
    obtain ⟨entries, hentries⟩ := ih hrepos
    exact ⟨(cs, v) :: entries, .cons ⟨hcs, hwrites, hdecodes⟩ hentries⟩

theorem writes_of_written (h : List.Forall₂ WrittenAs repos entries) :
    (Config.reposDocument .outer repos).Writes 3 (.object entries) := by
  refine .object (List.forall₂_map_left_iff.2 (h.imp ?_))
  rintro ⟨name, r⟩ ⟨key, v⟩ ⟨hname, hwrites, -⟩
  refine ⟨?_, hwrites⟩
  rw [show name = .ofChars key from hname, Text.legible_ofChars]

theorem keys_of_written (h : List.Forall₂ WrittenAs repos entries) :
    Entries.keys repos = (Entries.keys entries).map Text.ofChars := by
  induction h with
  | nil => rfl
  | cons h _ ih => exact congrArg₂ List.cons h.name ih

theorem nodup_of_written (h : List.Forall₂ WrittenAs repos entries)
    (hdistinct : (Entries.keys repos).Nodup) : (Entries.keys entries).Nodup := by
  rw [keys_of_written h] at hdistinct
  exact hdistinct.of_map Text.ofChars

/-- A written map of distinct names is decoded entry by entry. -/
theorem decode_of_written (h : List.Forall₂ WrittenAs repos entries)
    (hdistinct : (Entries.keys repos).Nodup) :
    Schema.entries Repository.decode (keyed entries)
      = .accepted (Entries.mapValues Repository.veiled repos) := by
  have hall : (keyed entries).map (entry Repository.decode)
      = (Entries.mapValues Repository.veiled repos).map Decoded.accepted := by
    clear hdistinct
    induction h with
    | nil => rfl
    | @cons entry written _ _ h _ ih =>
      obtain ⟨name, r⟩ := entry
      obtain ⟨key, v⟩ := written
      obtain ⟨hname, -, hdecodes⟩ := h
      have hentry : Schema.entry Repository.decode (Json.key key, v)
          = .accepted (name, r.veiled) :=
        entry_accepted_iff.2 ⟨congrArg Decoded.accepted hname.symm, hdecodes⟩
      exact congrArg₂ List.cons hentry ih
  rw [Schema.entries, Decoded.all_accepted_iff.2 hall, Decoded.map, Entries.collapse_of_nodup]
  rwa [Entries.keys_mapValues]

theorem reposDecodesTo (h : AreWritable repos) :
    (Config.reposDocument .outer repos).DecodesTo Config.decodeRepos 3
      (Entries.mapValues Repository.veiled repos) := by
  obtain ⟨entries, hentries⟩ := exists_written h.each
  exact ⟨.object entries, writes_of_written hentries, decode_of_written hentries h.distinct⟩

theorem reposDecodesTo_nullable (h : AreWritable repos) :
    (Config.reposDocument .outer repos).DecodesTo (nullableMap Repository.decode) 3
      (Entries.mapValues Repository.veiled repos) := by
  obtain ⟨entries, hentries⟩ := exists_written h.each
  refine ⟨.object entries, writes_of_written hentries, ?_⟩
  have hcollapse : Entries.collapse (keyed entries) = keyed entries := by
    rw [collapse_keyed, Entries.collapse_of_nodup (nodup_of_written hentries h.distinct)]
  rw [← decode_of_written hentries h.distinct, ← hcollapse]
  rfl

theorem decode_object (dbPath title repos indexers health : Json) :
    Config.decode (Json.object [("dbpath".toList, dbPath), ("title".toList, title),
        ("repos".toList, repos), ("max-concurrent-indexers".toList, indexers),
        ("health-check-uri".toList, health)])
      = ConfigOf.mk
        <$> (text dbPath).under (.key "dbpath")
        <*> (text title).under (.key "title")
        <*> (nullableMap Repository.decode repos).under (.key "repos")
        <*> (integer indexers).under (.key "max-concurrent-indexers")
        <*> (text health).under (.key "health-check-uri") := rfl

theorem decodesTo {c : Config} (h : c.IsWritable) :
    (c.document .outer).DecodesTo Config.decode 4 c.veiled := by
  obtain ⟨dbPath, hdbPath, hdbPathRead⟩ := Document.DecodesTo.text 3 h.dbPath
  obtain ⟨title, htitle, htitleRead⟩ := Document.DecodesTo.text 3 h.title
  obtain ⟨repos, hrepos, hreposRead⟩ := reposDecodesTo_nullable h.repos
  obtain ⟨indexers, hindexers, hindexersRead⟩ :=
    Document.DecodesTo.integer 3 h.maxConcurrentIndexers
  obtain ⟨health, hhealth, hhealthRead⟩ := Document.DecodesTo.text 3 h.healthCheckUri
  refine ⟨.object [("dbpath".toList, dbPath), ("title".toList, title), ("repos".toList, repos),
    ("max-concurrent-indexers".toList, indexers), ("health-check-uri".toList, health)],
    .object ?_, ?_⟩
  · exact .cons ⟨rfl, hdbPath⟩ <| .cons ⟨rfl, htitle⟩ <| .cons ⟨rfl, hrepos⟩ <|
      .cons ⟨rfl, hindexers⟩ <| .cons ⟨rfl, hhealth⟩ .nil
  · rw [decode_object, hdbPathRead, htitleRead, hreposRead, hindexersRead, hhealthRead]
    rfl

end Config

/-- Whatever is decoded from bytes is written as a text, and the bytes of that text are decoded as
the veiled value, which is written as the same text. -/
def DecodingUndoesWriting {β : Type} (decode : Json → Decoded β) (write : β → Document)
    (veil : β → β) : Prop :=
  ∀ bytes b, Decoded.ofBytes decode bytes = .accepted b →
    ∃ d utf8, (write b).print = .ok d ∧ d.encode = .ok utf8
      ∧ Decoded.ofBytes decode utf8 = .accepted (veil b) ∧ (write (veil b)).print = .ok d

theorem decodingUndoesWriting_of_decodesTo {β : Type} {decode : Json → Decoded β}
    {write : β → Document} {veil : β → β} {depth : Nat} (hdepth : depth ≤ maxNesting)
    (hdecodes : ∀ v b, Each WithinLimit v → decode v = .accepted b →
      (write b).DecodesTo decode depth (veil b))
    (hveil : ∀ b, write (veil b) = write b) : DecodingUndoesWriting decode write veil := by
  rintro bytes b h
  unfold Decoded.ofBytes at h
  split at h
  · rename_i v hv
    obtain ⟨w, hwrites, hdecode⟩ := hdecodes v b (integersWithinLimit_of_ofBytes? hv) h
    refine ⟨_, w.toBytes, hwrites.print, Text.encode_ofChars _, ?_, ?_⟩
    · rw [Decoded.ofBytes,
        ofBytes?_toBytes hwrites.readsBack (Nat.le_trans hwrites.shallow hdepth)]
      exact hdecode
    · rw [hveil, hwrites.print]
  · cases h

/-- Decoding undoes writing up to masking, for configurations, repositories, patterns and maps of
repositories. -/
theorem decode_undoes_document :
    DecodingUndoesWriting Config.decode (Config.document .outer) Config.veiled
      ∧ DecodingUndoesWriting Repository.decode (Repository.document .outer) Repository.veiled
      ∧ DecodingUndoesWriting UrlPattern.decode (UrlPattern.document .outer) id
      ∧ DecodingUndoesWriting Config.decodeRepos (Config.reposDocument .outer)
        (Entries.mapValues Repository.veiled) := by
  refine ⟨?_, ?_, ?_, ?_⟩
  · exact decodingUndoesWriting_of_decodesTo (by decide)
      (fun _ _ hv h => Config.decodesTo (Config.isWritable_of_decode hv h))
      (Config.document_veiled .outer)
  · exact decodingUndoesWriting_of_decodesTo (by decide)
      (fun _ _ hv h => Repository.decodesTo (Repository.isWritable_of_decode hv h))
      (Repository.document_veiled .outer)
  · exact decodingUndoesWriting_of_decodesTo (by decide)
      (fun _ _ _ h => UrlPattern.decodesTo (UrlPattern.isWritable_of_decode h)) fun _ => rfl
  · exact decodingUndoesWriting_of_decodesTo (by decide)
      (fun _ _ hv h => Config.reposDecodesTo (Config.areWritable_of_decodeRepos hv h))
      (Config.reposDocument_veiled .outer)

/-- A repository with a secret reads back with the empty object for it. -/
theorem decode_undoes_document_secret :
    ∃ d utf8, (Repository.document .outer
        ⟨"u", 0, [], some ⟨⟨#[0x37]⟩⟩, none, false, none, some false⟩).print = .ok d
      ∧ d.encode = .ok utf8
      ∧ Decoded.ofBytes Repository.decode utf8
        = .accepted ⟨"u", 0, [], some .veil, none, false, none, some false⟩
      ∧ (Repository.document .outer
        ⟨"u", 0, [], some .veil, none, false, none, some false⟩).print = .ok d := by
  have hread : Json.ofBytes? (Json.object [("url".toList, .string ['u']),
      ("vcs-config".toList, .int 7), ("enable-push-updates".toList, .bool false)]).toBytes
      = some (.object [("url".toList, .string ['u']), ("vcs-config".toList, .int 7),
        ("enable-push-updates".toList, .bool false)]) :=
    ofBytes?_toBytes (by simp [Each, EachEntry, ReadsBack, Digits.isWritable]; decide) (by decide)
  refine decode_undoes_document.2.1 (Json.object [("url".toList, .string ['u']),
    ("vcs-config".toList, .int 7), ("enable-push-updates".toList, .bool false)]).toBytes _ ?_
  rw [Decoded.ofBytes, hread]
  rfl

end SearchConfig
