import SearchConfig.Proofs.Runs
import SearchConfig.Proofs.UnicodeTexts

/-!
# What stands on standard output

A command prints line by line, so that a line that cannot be printed would leave those before it.
But all that is printed of a loaded configuration can be written, and so every line is printed if
the files and the arguments are Unicode. Whatever else goes wrong goes wrong before the first line
(`Command.print_isClean`).
-/

namespace SearchConfig

theorem Outcome.isScalar_echo_iff {t : Text} : (echo t).IsScalar ↔ t.IsScalar := by
  rw [echo, Text.isScalar_withoutSequences_iff, Text.isScalar_append_iff, and_iff_left ⟨['\n'], rfl⟩]

namespace Line

theorem written_of_isScalar {t : Text} (h : t.IsScalar) : written t = .ok t := by
  rw [written, Text.loneSurrogates?_eq_none_iff.2 h]

theorem written_of_not_isScalar {t : Text} (h : ¬ t.IsScalar) :
    ∃ run, written t = .error (.unencodable run) := by
  rcases hrun : t.loneSurrogates? with _ | run
  · exact absurd (Text.loneSurrogates?_eq_none_iff.1 hrun) h
  · exact ⟨run, by rw [written, hrun]⟩

theorem printed_of_isScalar : ∀ {texts : List Text}, (∀ t ∈ texts, t.IsScalar) →
    printed (texts.map .ok) = (texts.flatMap Outcome.echo, none)
  | [], _ => rfl
  | t :: texts, h => by
    obtain ⟨ht, htexts⟩ := List.forall_mem_cons.1 h
    have hecho : written (Outcome.echo t) = .ok (Outcome.echo t) :=
      written_of_isScalar (Outcome.isScalar_echo_iff.2 ht)
    simp only [List.map_cons, printed, Except.bind, hecho, printed_of_isScalar htexts,
      List.flatMap_cons]

theorem zipWith_withNumbers : ∀ {numbers : List (List Int)} {texts : List Text},
    numbers.length = texts.length → (∀ ns ∈ numbers, ∀ n ∈ ns, Digits.isWritable n = true) →
    List.zipWith withNumbers numbers texts = texts.map .ok
  | [], [], _, _ => rfl
  | ns :: numbers, t :: texts, hlength, h => by
    obtain ⟨hns, hnumbers⟩ := List.forall_mem_cons.1 h
    rw [List.zipWith_cons_cons, withNumbers, if_pos (List.all_eq_true.2 hns),
      zipWith_withNumbers (Nat.succ_inj.1 hlength) hnumbers, List.map_cons]

end Line

/-- Stands nothing on standard output unless the run succeeds, and is it Unicode then? -/
inductive Outcome.IsClean : Outcome → Prop
  | stopped (exitCode : Nat) (stderr : Text) (crash : Option Crash) :
    IsClean ⟨exitCode, [], stderr, crash⟩
  | succeeded {stdout : Text} (h : stdout.IsScalar) (stderr : Text) :
    IsClean (.succeeded stdout stderr)

open Outcome

theorem Printout.atOnce_of_isClean {o : Outcome} (h : o.IsClean) : atOnce o = ⟨o, none⟩ := by
  rcases h with _ | ⟨h, stderr⟩
  · rfl
  · rw [atOnce, succeeded, Line.written_of_isScalar h]

theorem Printout.stdout_ofLines (stderr : Text) (lines : List Line) :
    (ofLines stderr lines).stdout = (Line.printed lines).1 := by
  unfold ofLines
  split
  · rename_i h
    rw [h]
    rfl
  · rename_i h
    rw [h]
    rfl

namespace Session

variable {s : Session} {c : Config}

theorem log_nil (s : Session) : s.log [] = s := by
  rw [log, Logging.lines, List.flatMap_nil, List.append_nil]

theorem isScalar_overviewLine {name : Text} {r : Repository} (hname : name.IsScalar)
    (hr : r.IsWritable) : (overviewLine (name, r)).IsScalar := by
  have honOff : ∀ b, Text.IsScalar (onOff b) := fun b => by cases b <;> exact ⟨_, rfl⟩
  have hms : Text.IsScalar (Text.ofInt r.msBetweenPoll) := ⟨_, rfl⟩
  rw [overviewLine]
  exact (((((((((Text.IsScalar.append ⟨_, rfl⟩ hname).append ⟨_, rfl⟩).append hr.vcs).append
    ⟨_, rfl⟩).append hms).append ⟨_, rfl⟩).append (honOff _)).append ⟨_, rfl⟩).append (honOff _))

theorem isScalar_overview (hc : c.IsWritable) : ∀ t ∈ overview c, t.IsScalar := by
  have hsorted : ∀ entry ∈ c.sortedRepos, entry.1.IsScalar ∧ entry.2.IsWritable := fun entry h =>
    hc.repos.each entry (c.perm_sortedRepos.mem_iff.1 h)
  have hlines : ∀ t ∈ c.sortedRepos.map overviewLine, t.IsScalar := by
    rw [List.forall_mem_map]
    intro entry hentry
    obtain ⟨hname, hr⟩ := hsorted entry hentry
    exact isScalar_overviewLine hname hr
  rw [overview, List.forall_mem_append]
  refine ⟨?_, hlines⟩
  simp only [List.forall_mem_cons]
  exact ⟨hc.title, Text.IsScalar.append ⟨_, rfl⟩ hc.dbPath, ⟨_, (List.map_append ..).symm⟩,
    Text.IsScalar.append ⟨_, rfl⟩ hc.healthCheckUri, ⟨_, (List.map_append ..).symm⟩, by simp⟩

/-- All lines of the overview of a configuration that can be written are printed. -/
theorem overviewLines_eq (hc : c.IsWritable) : overviewLines c = (overview c).map .ok := by
  refine Line.zipWith_withNumbers (by simp [overviewNumbers, overview]) ?_
  have hsorted : ∀ entry ∈ c.sortedRepos, Digits.isWritable entry.2.msBetweenPoll = true :=
    fun entry h => (hc.repos.each entry (c.perm_sortedRepos.mem_iff.1 h)).2.msBetweenPoll
  have hrows : ∀ ns ∈ c.sortedRepos.map fun entry => [entry.2.msBetweenPoll],
      ∀ n ∈ ns, Digits.isWritable n = true := by
    rw [List.forall_mem_map]
    exact fun entry h => List.forall_mem_singleton.2 (hsorted entry h)
  rw [overviewNumbers, List.forall_mem_append]
  exact ⟨by simp [hc.maxConcurrentIndexers], hrows⟩

/-- An overview that can be written is printed as a whole. -/
theorem printAnswer_check (s : Session) (hc : c.IsWritable) (config : Option Text) :
    s.printAnswer c (.check config)
      = ⟨.succeeded ((overview c).flatMap echo) s.stderr, none⟩ := by
  rw [printAnswer, Printout.ofLines, overviewLines_eq hc,
    Line.printed_of_isScalar (isScalar_overview hc)]

theorem isScalar_overview_flatMap (hc : c.IsWritable) :
    Text.IsScalar ((overview c).flatMap echo) := by
  refine (Text.isScalar_iff _).2 fun p hp => ?_
  obtain ⟨t, ht, hp⟩ := List.mem_flatMap.1 hp
  exact (Text.isScalar_iff _).1 (isScalar_echo_iff.2 (isScalar_overview hc t ht)) p hp

theorem isClean_repos (s : Session) (c : Config) : (s.repos c).IsClean := by
  unfold repos
  split
  · rename_i t ht
    rw [Config.listing, Document.print] at ht
    rcases hjson : (Config.reposDocument .outer c.sortedRepos).toJson with run | v <;>
      rw [hjson] at ht
    · cases ht
    · obtain rfl := Except.ok.inj ht
      exact .succeeded (isScalar_echo_iff.2 ⟨_, rfl⟩) _
  · exact .stopped ..

theorem isClean_url (s : Session) (hc : c.IsWritable) (repo : Text) {path : Text}
    (hpath : path.IsScalar) (line : Option Int) : (s.url repo path line c).IsClean := by
  unfold url
  split
  · exact .stopped ..
  rename_i r hr
  split
  · exact .stopped ..
  rename_i linker hlinker
  split
  · rename_i link hlink
    have hscalar := Linker.isScalar_of_link? (hc.repos.each _ (Entries.mem_of_get? hr)).2 hlinker
      hpath hlink
    exact .succeeded (isScalar_echo_iff.2 hscalar) _
  · exact .stopped ..

end Session

/-- Is the path that a request names Unicode? -/
def Request.IsUnicode : Request → Prop
  | url _ _ path _ => path.IsScalar
  | _ => True

namespace Session

variable {s : Session}

theorem printAnswer_isClean {c : Config} (hc : c.IsWritable) {r : Request} (hr : r.IsUnicode) :
    ∃ o, s.printAnswer c r = ⟨o, none⟩ ∧ o.IsClean := by
  rcases r with config | config | ⟨config, repo, path, line⟩
  · exact ⟨_, printAnswer_check s hc config, .succeeded (isScalar_overview_flatMap hc) _⟩
  · have hclean := isClean_repos s c
    exact ⟨_, Printout.atOnce_of_isClean hclean, hclean⟩
  · have hclean := isClean_url s hc repo hr line
    exact ⟨_, Printout.atOnce_of_isClean hclean, hclean⟩

theorem print_isClean (hfiles : s.files.IsUnicode) {r : Request} (hr : r.IsUnicode) :
    ∃ o, s.print r = ⟨o, none⟩ ∧ o.IsClean := by
  rw [print_eq]
  rcases hload : Config.load s.files (s.configPath r.config) with (f | fault) | c
  · exact ⟨_, rfl, .stopped ..⟩
  · exact ⟨_, rfl, .stopped ..⟩
  · exact printAnswer_isClean (Config.isWritable_of_load hfiles hload) hr

end Session

namespace Arguments

theorem exists_of_map {f : Arguments → Arguments} {x : Except UsageFault Arguments} {a : Arguments}
    (h : x.map f = .ok a) : ∃ b, x = .ok b ∧ f b = a := by
  rcases x with fault | b
  · cases h
  · exact ⟨b, rfl, Except.ok.inj h⟩

/-- The positional arguments are arguments. -/
theorem positional_subset {rules : OptionRules} {arguments : List Text} {a : Arguments}
    (h : read rules arguments = .ok a) : a.positional ⊆ arguments := by
  fun_induction read rules arguments generalizing a with
  | case1 => exact Except.ok.inj h ▸ List.Subset.refl _
  | case2 => exact Except.ok.inj h ▸ List.subset_cons_self _ _
  | case3 => cases h
  | case4 argument rest _ _ switches _ ih =>
    obtain ⟨b, hb, rfl⟩ := exists_of_map h
    have hb' : b.positional ⊆ rest := ih hb
    exact List.subset_cons_of_subset _ hb'
  | case5 => cases h
  | case6 argument _ _ switches switch name _ value rest ih =>
    obtain ⟨b, hb, rfl⟩ := exists_of_map h
    have hb' : b.positional ⊆ rest := ih hb
    exact List.subset_cons_of_subset _ (List.subset_cons_of_subset _ hb')
  | case7 argument rest _ _ _ ih =>
    obtain ⟨b, hb, rfl⟩ := exists_of_map h
    exact List.cons_subset_cons _ (ih hb)
  | case8 => exact Except.ok.inj h ▸ List.Subset.refl _

end Arguments

namespace Command

variable {around : Surroundings} {timestamp : Text} {arguments : List Text} {outcome : Outcome}

theorem isUnicode_of_read {c : Command} {r : Request} (harguments : ∀ t ∈ arguments, t.IsScalar)
    (h : c.read arguments = .ok (.request r)) : r.IsUnicode := by
  unfold read at h
  rcases hread : Arguments.read c.rules arguments with fault | a
  · rw [hread] at h
    cases h
  have hpositional := Arguments.positional_subset hread
  rw [hread] at h
  simp only [bind, Except.bind] at h
  split_ifs at h
  · cases h
  have hoptional : ∀ {request positional}, optionalConfig request positional = .ok (.request r) →
      ∃ config, r = request config := by
    intro request positional h
    rcases positional with _ | ⟨config, _ | _⟩
    · exact ⟨none, (Reading.request.inj (Except.ok.inj h)).symm⟩
    · exact ⟨some config, (Reading.request.inj (Except.ok.inj h)).symm⟩
    · cases h
  rcases c
  · obtain ⟨config, rfl⟩ := hoptional h
    trivial
  · obtain ⟨config, rfl⟩ := hoptional h
    trivial
  · simp only [requestOf, bind, Except.bind] at h
    rcases hline : lineOf a with fault | line <;> rw [hline] at h
    · cases h
    simp only [] at h
    split at h
    · cases h
    · cases h
    · rename_i repo path hwords
      obtain rfl := Reading.request.inj (Except.ok.inj h)
      exact harguments path (hpositional (hwords ▸ by simp))
    · cases h

theorem subset_of_select {a : Arguments} {c : Command} {rest : List Text}
    (h : select arguments = .ok (a, c, rest)) : rest ⊆ arguments := by
  unfold select at h
  split_ifs at h
  rcases hread : Arguments.read programRules arguments with fault | b
  · simp only [hread] at h
    cases h
  · simp only [hread] at h
    split_ifs at h
    rcases hwords : b.positional with _ | ⟨word, others⟩
    · simp only [hwords] at h
      cases h
    · simp only [hwords] at h
      split at h
      · obtain ⟨rfl, -, rfl⟩ : b = a ∧ _ = c ∧ others = rest := by simpa using h
        exact List.Subset.trans (hwords ▸ List.subset_cons_self _ _)
          (Arguments.positional_subset hread)
      · cases h

theorem isScalar_programHelp : programHelp.IsScalar :=
  ⟨programHelp.filterMap CodePoint.char?, by decide +kernel⟩

theorem isScalar_help (c : Command) : c.help.IsScalar :=
  ⟨c.help.filterMap CodePoint.char?, by cases c <;> decide +kernel⟩

theorem isClean_of_isEarly (h : outcome.IsEarly) : outcome.IsClean := by
  cases h with
  | programHelp => exact .succeeded isScalar_programHelp _
  | help c stderr => exact .succeeded (isScalar_help c) _
  | _ => exact .stopped ..

variable (around timestamp) in
/-- If the files and the arguments are Unicode then every line is printed, and nothing is printed
unless the run succeeds. -/
theorem print_isClean (hfiles : around.files.IsUnicode) (harguments : ∀ t ∈ arguments, t.IsScalar) :
    ∃ o, print around timestamp arguments = ⟨o, none⟩ ∧ o.IsClean := by
  rw [print]
  obtain ⟨outcome, hprepare, hearly⟩ | ⟨a, c, rest, s, r, hselect, hsession, hread, hprepare⟩ :=
    prepare_cases around timestamp arguments <;> simp only [hprepare]
  · have hclean := isClean_of_isEarly hearly
    exact ⟨_, Printout.atOnce_of_isClean hclean, hclean⟩
  · have hrest : ∀ t ∈ rest, t.IsScalar := fun t ht => harguments t (subset_of_select hselect ht)
    exact Session.print_isClean (files_of_session hsession ▸ hfiles) (isUnicode_of_read hrest hread)

end Command

end SearchConfig
