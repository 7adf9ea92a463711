import SearchConfig.Proofs.ControlSequences
import SearchConfig.Proofs.Printouts

/-!
# Listings in the order of names

Of a configuration that is loaded, the map of the repositories can always be written. It is an
object whose keys are the names, each once and in the order of their code points, and it holds no
control character, so it is printed as it is written. The overview has a line for each key, in the
same order, unless the place of the database cannot be encoded (`Session.lists_of_load`).
-/

namespace SearchConfig

/-- Does the text stand before the other one by code point, a proper beginning first? -/
def Text.IsBefore (s t : Text) : Prop := s.map CodePoint.value < t.map CodePoint.value

namespace Text

theorem isBefore_of_le : ∀ {s t : Text}, s.le t = true → s ≠ t → s.IsBefore t
  | [], [], _, hne => absurd rfl hne
  | [], _ :: _, _, _ => List.nil_lt_cons _ _
  | _ :: _, [], h, _ => by cases h
  | a :: s, b :: t, h, hne => by
    rw [IsBefore, List.map_cons, List.map_cons, List.cons_lt_cons_iff]
    rcases le_cons_iff.1 h with hlt | ⟨rfl, hle⟩
    · exact .inl hlt
    · exact .inr ⟨rfl, isBefore_of_le hle fun heq => hne (heq ▸ rfl)⟩

theorem le_antisymm {s t : Text} (h : s.le t = true) (h' : t.le s = true) : s = t := by
  by_contra hne
  exact List.lt_asymm (isBefore_of_le h hne) (isBefore_of_le h' (Ne.symm hne))

end Text

/-- The names that stand in the order of a listing stand strictly so if they are distinct. -/
theorem ConfigOf.pairwise_isBefore {ρ : Type} {c : ConfigOf ρ} (h : (Entries.keys c.repos).Nodup) :
    (Entries.keys c.sortedRepos).Pairwise Text.IsBefore := by
  have hnodup : (Entries.keys c.sortedRepos).Nodup :=
    (c.perm_sortedRepos.map Prod.fst).nodup_iff.2 h
  have hle : (Entries.keys c.sortedRepos).Pairwise fun s t => s.le t = true :=
    List.pairwise_map.2 c.pairwise_sortedRepos
  exact (hle.and hnodup).imp fun ⟨hle, hne⟩ => Text.isBefore_of_le hle hne

namespace Session

variable {s : Session} {path : Option Text} {c : Config}

/-- Do the requests to list a configuration and to give an overview of it show the repositories as
the entries of an object, each once and in the order of their names? An overview ends behind the
title if the place of the database cannot be encoded. -/
structure Lists (s : Session) (path : Option Text) (c : Config) (listing : Text)
    (entries : List (List Char × Json)) : Prop where
  written : c.listing = .ok listing
  reads : ∃ bytes, listing.encode = .ok bytes ∧ Json.ofBytes? bytes = some (.object entries)
  names : ((Entries.keys entries).map Text.ofChars).Perm (Entries.keys c.repos)
  increasing : ((Entries.keys entries).map Text.ofChars).Pairwise Text.IsBefore
  plain : listing.IsPlain
  printed : ∃ stderr, s.print (.repos path) = ⟨.succeeded (listing ++ "\n") stderr, none⟩
  overview : c.dbPath.IsScalar → ∃ heading lines stderr,
    s.print (.check path) = ⟨.succeeded ((heading ++ lines).flatMap Outcome.echo) stderr, none⟩
      ∧ heading.getLast? = some ("  Repositories:  " ++ Text.ofNat lines.length)
      ∧ List.Forall₂ (fun key line => ∃ r, (.ofChars key, r) ∈ c.repos
        ∧ line = overviewLine (.ofChars key, r)) (Entries.keys entries) lines
  broken : ¬ c.dbPath.IsScalar → ∃ stderr run,
    s.print (.check path) = .broken (Outcome.echo c.title) stderr (.unencodable run)

theorem print_of_ok (h : Config.load s.files (s.configPath path) = .ok c) {r : Request}
    (hr : r.config = path) :
    s.print r = (s.log (Config.loadRecords (s.configPath path) (.ok c))).printAnswer c r := by
  rw [print_eq, hr, h]
  rfl

/-- What is loaded is shown in an overview up to the title if the place of the database cannot be
encoded. -/
theorem printAnswer_check_of_load {files : Files} {name : Text} (h : Config.load files name = .ok c)
    (hdbPath : ¬ c.dbPath.IsScalar) (s : Session) (config : Option Text) :
    ∃ run, s.printAnswer c (.check config)
      = .broken (Outcome.echo c.title) s.stderr (.unencodable run) := by
  have htitle : Line.written (Outcome.echo c.title) = .ok (Outcome.echo c.title) :=
    Line.written_of_isScalar
      (Outcome.isScalar_echo_iff.2 (Config.isWritable_withDbPath_of_load h ⟨[], rfl⟩).title)
  have hline : ¬ Text.IsScalar (Outcome.echo ("  DB path:       " ++ c.dbPath)) := by
    rw [Outcome.isScalar_echo_iff, Text.isScalar_append_iff]
    exact fun hboth => hdbPath hboth.2
  obtain ⟨run, hrun⟩ := Line.written_of_not_isScalar hline
  obtain ⟨rest, hlines⟩ : ∃ rest, overviewLines c
      = .ok c.title :: .ok ("  DB path:       " ++ c.dbPath) :: rest := ⟨_, rfl⟩
  refine ⟨run, ?_⟩
  rw [printAnswer, hlines, Printout.ofLines]
  simp only [Line.printed, Except.bind, htitle, hrun, List.append_nil]

theorem forall₂_lines {repos : List (Text × Repository)} {entries : List (List Char × Json)}
    (h : List.Forall₂ Config.WrittenAs repos entries) (hrepos : ∀ entry ∈ repos, entry ∈ c.repos) :
    List.Forall₂ (fun key line => ∃ r, (.ofChars key, r) ∈ c.repos
      ∧ line = overviewLine (.ofChars key, r)) (Entries.keys entries) (repos.map overviewLine) := by
  induction h with
  | nil => exact .nil
  | @cons entry written _ _ hwritten _ ih =>
    rw [List.forall_mem_cons] at hrepos
    obtain ⟨name, r⟩ := entry
    obtain rfl : name = .ofChars written.1 := hwritten.name
    exact .cons ⟨r, hrepos.1, rfl⟩ (ih hrepos.2)

theorem lists_of_load (h : Config.load s.files (s.configPath path) = .ok c) :
    ∃ listing entries, s.Lists path c listing entries := by
  have hwritable := Config.areWritable_of_load h
  obtain ⟨entries, hentries⟩ := Config.exists_written (hwritable.perm c.perm_sortedRepos).each
  have hwrites := Config.writes_of_written hentries
  have hkeys : (Entries.keys entries).map Text.ofChars = Entries.keys c.sortedRepos :=
    (Config.keys_of_written hentries).symm
  have hlisting : c.listing = .ok (.ofChars ((Json.object entries).print .compact)) := hwrites.print
  have hplain := Document.isPlain_of_print hlisting
  let s' := s.log (Config.loadRecords (s.configPath path) (.ok c))
  refine ⟨_, entries, hlisting, ⟨_, Text.encode_ofChars _, ?_⟩, ?_, ?_, hplain, ⟨s'.stderr, ?_⟩,
    fun hdbPath => ?_, fun hdbPath => ?_⟩
  · exact Json.ofBytes?_toBytes hwrites.readsBack (hwrites.shallow.trans (by decide))
  · rw [hkeys]
    exact c.perm_sortedRepos.map Prod.fst
  · rw [hkeys]
    exact ConfigOf.pairwise_isBefore hwritable.distinct
  · rw [print_of_ok h rfl, printAnswer, Printout.atOnce_of_isClean (isClean_repos _ c), repos,
      hlisting, ← Outcome.echo_of_isPlain hplain]
  · have hc : c.IsWritable := Config.isWritable_withDbPath_of_load h hdbPath
    refine ⟨_, c.sortedRepos.map overviewLine, s'.stderr, (print_of_ok h rfl).trans
      (s'.printAnswer_check hc path), ?_, ?_⟩
    · rw [List.length_map, c.perm_sortedRepos.length_eq]
      rfl
    · exact forall₂_lines hentries fun entry hentry => c.perm_sortedRepos.mem_iff.1 hentry
  · obtain ⟨run, hprint⟩ := printAnswer_check_of_load h hdbPath s' path
    exact ⟨s'.stderr, run, (print_of_ok h rfl).trans hprint⟩

end Session

end SearchConfig
