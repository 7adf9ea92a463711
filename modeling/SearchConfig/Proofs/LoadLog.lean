import SearchConfig.Proofs.Reload

/-!
# What a load logs

A load that fails has logged nothing, since the last of its steps that may fail stands before the
first that logs. One that ends well has logged each repository once by its name and version control
system, and then the file, the number of the repositories and the place of the database. Nothing else
of a configuration is told (`load_logs_only_names`).
-/

namespace SearchConfig

open Config

/-- A load that fails has logged nothing. One that ends well has logged each repository once, in
their order and by no more than its name and version control system, and then the path, the number
of the repositories and the place of the database. So whatever else two files hold, loads of the
same path log the same if they end well and agree on these. -/
theorem load_logs_only_names (files : Files) (name : Text) :
    (∀ e, load files name = .error e → (loadLogged files name).outcome = (.error e, []))
    ∧ (∀ c, load files name = .ok c → (Entries.keys c.repos).Nodup
      ∧ (loadLogged files name).outcome = (.ok c,
        c.repos.map (fun entry => ⟨.debug, "hound.core.loader", .text "Repository configured",
          [("repo", .text entry.1), ("vcs", .text entry.2.vcs)]⟩)
        ++ [⟨.info, "hound.core.loader", .text "Config loaded",
          [("path", .text (Path.ofText name).toText), ("repos", .int c.repos.length),
            ("dbpath", .text c.dbPath)]⟩]))
    ∧ ∀ files' c c', load files name = .ok c → load files' name = .ok c' →
      Entries.mapValues RepositoryOf.vcs c.repos = Entries.mapValues RepositoryOf.vcs c'.repos →
      c.dbPath = c'.dbPath →
      (loadLogged files name).outcome.2 = (loadLogged files' name).outcome.2 := by
  have hlogs : ∀ {files : Files} {c : Config}, load files name = .ok c →
      (loadLogged files name).outcome = (.ok c, loadRecords name (.ok c)) := fun {files c} h => by
    rw [outcome_loadLogged, h]
  refine ⟨fun e h => ?_, fun c h => ?_, fun files' c c' h h' hnames hplace => ?_⟩
  · rw [outcome_loadLogged, h]
    rfl
  · exact ⟨(areWritable_of_load h).distinct, hlogs h⟩
  · have hrecords : ∀ repos : List (Text × Repository), repos.map repositoryRecord
        = (Entries.mapValues RepositoryOf.vcs repos).map fun entry =>
          ⟨.debug, logger, .text "Repository configured",
            [("repo", .text entry.1), ("vcs", .text entry.2)]⟩ :=
      fun repos => by simp [Entries.mapValues, Function.comp_def, repositoryRecord]
    have hlength : c.repos.length = c'.repos.length := by
      simpa [Entries.mapValues] using congrArg List.length hnames
    rw [hlogs h, hlogs h']
    simp only [loadRecords, hrecords, hnames, hlength, hplace]

/-- A configuration with one repository, which has the given fields. -/
def Json.withFields (fields : List (List Char × Json)) : Json :=
  .object [("dbpath".toList, .string "/d".toList), ("repos".toList,
    .object [("r".toList, .object fields)])]

/-- A file whose repository has a password in its remote, one with a secret and another remote, and
one that is missing. -/
theorem load_logs_only_names_password :
    let files := Files.single "c" (Json.withFields [("url".toList, .string "u:p@h".toList)]).toBytes
    let files' := Files.single "c" (Json.withFields [("url".toList, .string "v".toList),
      ("vcs".toList, .string "git".toList), ("vcs-config".toList, .string "s".toList)]).toBytes
    (∃ c c', load files "c" = .ok c ∧ load files' "c" = .ok c' ∧ (Entries.keys c.repos).Nodup
      ∧ c.repos ≠ c'.repos
      ∧ (loadLogged files "c").outcome.2 = (loadLogged files' "c").outcome.2)
    ∧ ∃ e, load files "d" = .error e ∧ (loadLogged files "d").outcome = (.error e, []) := by
  intro files files'
  have hread : Json.ofBytes? (Json.withFields [("url".toList, .string "u:p@h".toList)]).toBytes
      = some (Json.withFields [("url".toList, .string "u:p@h".toList)]) :=
    Json.ofBytes?_toBytes (by simp [Json.withFields, Json.Each, Json.EachEntry, Json.ReadsBack])
      (by decide)
  have hread' : Json.ofBytes? (Json.withFields [("url".toList, .string "v".toList),
      ("vcs".toList, .string "git".toList), ("vcs-config".toList, .string "s".toList)]).toBytes
      = some (Json.withFields [("url".toList, .string "v".toList),
        ("vcs".toList, .string "git".toList), ("vcs-config".toList, .string "s".toList)]) :=
    Json.ofBytes?_toBytes (by simp [Json.withFields, Json.Each, Json.EachEntry, Json.ReadsBack])
      (by decide)
  have hfile : ofFile files (.ofText "c") = .ok ⟨"/d", [], _, 0, []⟩ :=
    (ofFile_of_read rfl hread).2 rfl
  have hfile' : ofFile files' (.ofText "c") = .ok ⟨"/d", [], _, 0, []⟩ :=
    (ofFile_of_read rfl hread').2 rfl
  have hload := load_of_ok hfile
  have hload' := load_of_ok hfile'
  obtain ⟨-, hends, hagree⟩ := load_logs_only_names files "c"
  have hother := (load_logs_only_names files "d").1 _ rfl
  refine ⟨⟨_, _, hload, hload', (hends _ hload).1, ?_, hagree files' _ _ hload hload' rfl rfl⟩,
    _, rfl, hother⟩
  decide

end SearchConfig
