import SearchConfig.CommandLine.Run
import SearchConfig.Proofs.ConfigDirectory
import SearchConfig.Proofs.ControlSequences
import SearchConfig.Proofs.Reload
import SearchConfig.Proofs.RemoteSpellings

/-!
# Texts that stay Unicode

A text that is stripped of control sequences, filled in or cut has only the code points of what it
was made of, so links and printed lines are Unicode if all that goes into them is. A file is opened
by names of entries, so a path that is read is Unicode if these are, wherever it comes from
(`Files.isScalar_of_read`), and so is everything in a configuration that is loaded
(`Config.isWritable_of_load`).
-/

namespace SearchConfig

open SearchConfig.Path

section MadeOf

variable {P : CodePoint → Prop}

namespace Text

theorem MadeOf.of_subset {s t : Text} (h : t.MadeOf P) (hs : s ⊆ t) : s.MadeOf P :=
  fun c hc => h c (hs hc)

theorem madeOf_withoutSequencesFrom {t : Text} (h : t.MadeOf P) (skip : Nat) :
    (withoutSequencesFrom skip t).MadeOf P := by
  induction t generalizing skip with
  | nil => exact h
  | cons c t ih =>
    obtain ⟨hc, ht⟩ := (madeOf_cons c t).1 h
    rw [withoutSequencesFrom.eq_def]
    simp only []
    split
    · exact ih ht _
    · exact ih ht _
    · exact (madeOf_cons _ _).2 ⟨hc, ih ht 0⟩

theorem madeOf_replaceFrom {old new t : Text} (hnew : new.MadeOf P) (h : t.MadeOf P) (skip : Nat) :
    (replaceFrom old new skip t).MadeOf P := by
  induction t generalizing skip with
  | nil => exact h
  | cons c t ih =>
    obtain ⟨hc, ht⟩ := (madeOf_cons c t).1 h
    rcases skip with _ | skip
    · rw [replaceFrom]
      split_ifs
      · exact (madeOf_append _ _).2 ⟨hnew, ih ht _⟩
      · exact (madeOf_cons _ _).2 ⟨hc, ih ht 0⟩
    · exact ih ht skip

end Text

theorem Template.madeOf_expand {values : List (Text × Text)} {template : Text}
    (h : template.MadeOf P) (hvalues : ∀ entry ∈ values, entry.2.MadeOf P) :
    (expand template values).MadeOf P := by
  induction values generalizing template with
  | nil => exact h
  | cons entry values ih =>
    obtain ⟨hentry, hvalues⟩ := List.forall_mem_cons.1 hvalues
    exact ih (Text.madeOf_replaceFrom hentry h 0) hvalues

end MadeOf

namespace Text

variable {s t : Text}

theorem isScalar_append_iff : IsScalar (s ++ t) ↔ s.IsScalar ∧ t.IsScalar := by
  simp only [isScalar_iff, madeOf_append]

theorem isScalar_cons_iff (c : Char) : IsScalar (.scalar c :: t) ↔ t.IsScalar := by
  rw [isScalar_iff, madeOf_cons, isScalar_iff, and_iff_right ⟨c, rfl⟩]

theorem IsScalar.append (hs : s.IsScalar) (ht : t.IsScalar) : IsScalar (s ++ t) :=
  isScalar_append_iff.2 ⟨hs, ht⟩

theorem IsScalar.of_subset (h : t.IsScalar) (hs : s ⊆ t) : s.IsScalar :=
  (isScalar_iff s).2 (((isScalar_iff t).1 h).of_subset hs)

theorem isScalar_of_loneSurrogatesFrom? {position : Nat}
    (h : loneSurrogatesFrom? position t = none) : t.IsScalar := by
  induction t generalizing position with
  | nil => exact ⟨[], rfl⟩
  | cons c t ih =>
    rcases c with c | offset
    · exact (isScalar_cons_iff c).2 (ih h)
    · cases h

theorem loneSurrogates?_eq_none_iff : t.loneSurrogates? = none ↔ t.IsScalar := by
  refine ⟨isScalar_of_loneSurrogatesFrom?, ?_⟩
  rintro ⟨cs, rfl⟩
  exact loneSurrogatesFrom?_ofChars 0 cs

theorem isScalar_of_value_le {c : CodePoint} (h : c.value ≤ 0x7E) : c.IsScalar := by
  rcases c with c | offset
  · exact ⟨c, rfl⟩
  · simp only [CodePoint.value] at h
    omega

theorem madeOf_takeWhile {p : CodePoint → Bool} (hp : ∀ c, p c = true → c.value ≤ 0x7E) (t : Text) :
    MadeOf CodePoint.IsScalar (t.take (t.takeWhile p).length) := by
  rw [← List.prefix_iff_eq_take.1 (List.takeWhile_prefix p)]
  exact fun c hc => isScalar_of_value_le (hp c (List.mem_takeWhile_imp hc))

/-- A control sequence holds no lone surrogates. -/
theorem madeOf_sequence (t : Text) : MadeOf CodePoint.IsScalar (t.take t.sequenceLength) := by
  have hnil : MadeOf CodePoint.IsScalar [] := fun c hc => absurd hc List.not_mem_nil
  by_cases h : ∃ rest, t = .scalar '\x1b' :: .scalar '[' :: rest
  swap
  · rw [sequenceLength_of_no_opening (not_exists.1 h)]
    exact hnil
  obtain ⟨rest, rfl⟩ := h
  rw [sequenceLength_opening]
  simp only [lengthBehindOpening]
  split
  swap
  · exact hnil
  rename_i c others hothers
  split
  swap
  · exact hnil
  rename_i hfinal
  have hparameters := madeOf_takeWhile (p := CodePoint.isParameter) (fun c hc => by
    simp only [CodePoint.isParameter, Bool.and_eq_true, decide_eq_true_eq] at hc
    omega) rest
  have hintermediates := madeOf_takeWhile (p := CodePoint.isIntermediate) (fun c hc => by
    simp only [CodePoint.isIntermediate, Bool.and_eq_true, decide_eq_true_eq] at hc
    omega) (rest.drop (rest.takeWhile CodePoint.isParameter).length)
  have hlast : MadeOf CodePoint.IsScalar [c] := List.forall_mem_singleton.2 (isScalar_of_value_le (by
    simp only [CodePoint.isFinal, Bool.and_eq_true, decide_eq_true_eq] at hfinal
    exact hfinal.2))
  rw [List.take_succ_cons, List.take_succ_cons, List.take_add, List.take_add, hothers]
  exact (madeOf_cons _ _).2 ⟨⟨_, rfl⟩, (madeOf_cons _ _).2 ⟨⟨_, rfl⟩,
    (madeOf_append _ _).2 ⟨(madeOf_append _ _).2 ⟨hparameters, hintermediates⟩, hlast⟩⟩⟩

theorem madeOf_of_withoutSequencesFrom : ∀ {t : Text} {skip : Nat},
    MadeOf CodePoint.IsScalar (t.take skip) →
    MadeOf CodePoint.IsScalar (withoutSequencesFrom skip t) → t.MadeOf CodePoint.IsScalar
  | [], _, h, _ => fun c hc => absurd hc List.not_mem_nil
  | c :: t, skip, hskip, h => by
    rw [withoutSequencesFrom.eq_def] at h
    simp only [] at h
    have hsequence := madeOf_sequence (c :: t)
    split at h
    · obtain ⟨hc, ht⟩ := (madeOf_cons _ _).1 hskip
      exact (madeOf_cons c t).2 ⟨hc, madeOf_of_withoutSequencesFrom ht h⟩
    · rename_i hlength
      rw [hlength] at hsequence
      obtain ⟨hc, ht⟩ := (madeOf_cons _ _).1 hsequence
      exact (madeOf_cons c t).2 ⟨hc, madeOf_of_withoutSequencesFrom ht h⟩
    · obtain ⟨hc, ht⟩ := (madeOf_cons _ _).1 h
      exact (madeOf_cons c t).2 ⟨hc, madeOf_of_withoutSequencesFrom
        (fun c hc => absurd hc List.not_mem_nil) ht⟩

/-- What is left without control sequences is Unicode just if the text is. -/
theorem isScalar_withoutSequences_iff : t.withoutSequences.IsScalar ↔ t.IsScalar := by
  rw [isScalar_iff, isScalar_iff]
  exact ⟨madeOf_of_withoutSequencesFrom fun c hc => absurd hc List.not_mem_nil,
    fun h => madeOf_withoutSequencesFrom h 0⟩

end Text

theorem Template.isScalar_expand {values : List (Text × Text)} {template : Text}
    (h : template.IsScalar) (hvalues : ∀ entry ∈ values, entry.2.IsScalar) :
    (expand template values).IsScalar :=
  (Text.isScalar_iff _).2 (madeOf_expand ((Text.isScalar_iff _).1 h) fun entry hentry =>
    (Text.isScalar_iff _).1 (hvalues entry hentry))

namespace Remote

variable {remote : Text}

theorem isScalar_withoutEnding (h : remote.IsScalar) : (withoutEnding remote).IsScalar := by
  rw [withoutEnding]
  split
  · rename_i t ht
    rw [Text.dropEnding?_eq_some_iff] at ht
    exact h.of_subset (ht ▸ List.subset_append_left _ _)
  · split
    · rename_i t ht
      rw [Text.dropEnding?_eq_some_iff] at ht
      exact (h.of_subset (ht ▸ List.subset_append_left _ _)).append ⟨['\n'], rfl⟩
    · exact h

theorem isScalar_webAddress (h : remote.IsScalar) : (webAddress remote).IsScalar := by
  have hremote := isScalar_withoutEnding h
  simp only [webAddress]
  split
  · rename_i host path hparts
    unfold hostAndPath? at hparts
    split at hparts
    · cases hparts
    · rename_i t ht
      rw [Text.dropBeginning?_eq_some_iff] at ht
      have hsubset : t ⊆ withoutEnding remote := ht ▸ List.subset_append_right _ _
      simp only [] at hparts
      split_ifs at hparts
      obtain ⟨rfl, rfl⟩ := Prod.mk.inj (Option.some.inj hparts)
      have hhost : t.takeWhile (· != .scalar ':') ⊆ t := (List.takeWhile_sublist _).subset
      have hpath : ∀ n, (t.drop n).takeWhile (· != newline) ⊆ t := fun n =>
        List.Subset.trans (List.takeWhile_sublist _).subset (List.drop_subset n t)
      refine ((Text.IsScalar.append ⟨_, rfl⟩ ?_).append ⟨_, rfl⟩).append ?_
      · exact hremote.of_subset (List.Subset.trans hhost hsubset)
      · exact hremote.of_subset (List.Subset.trans (hpath _) hsubset)
  · exact hremote

end Remote

/-- A link is Unicode if the repository and the path are. -/
theorem Linker.isScalar_of_link? {r : Repository} (hr : r.IsWritable) {linker : Linker}
    (hlinker : Linker.ofRepository r = .ok linker) {path : Text} (hpath : path.IsScalar)
    {line : Option Int} {link : Text} (h : linker.link? path line = some link) : link.IsScalar := by
  obtain ⟨p, hp, rfl⟩ : ∃ p, r.urlPattern = some p ∧ linker = ⟨r.url, p⟩ := by
    unfold ofRepository at hlinker
    split at hlinker
    · exact ⟨_, ‹_›, (Except.ok.inj hlinker).symm⟩
    · cases hlinker
  have hpattern := hr.urlPattern p hp
  have hrelative : (relative path).IsScalar := hpath.of_subset (List.dropWhile_sublist _).subset
  have hat : ∀ line : Option Text, (∀ t ∈ line, t.IsScalar) →
      (linkAt ⟨r.url, p⟩ path line).IsScalar := by
    intro line hline
    have hanchor : (anchorOf p line).IsScalar := by
      rcases line with _ | t
      · exact ⟨[], rfl⟩
      · exact Template.isScalar_expand hpattern.anchor (by simpa using hline t rfl)
    refine Template.isScalar_expand hpattern.baseUrl ?_
    simpa using ⟨Remote.isScalar_webAddress hr.url, hrelative, hanchor⟩
  rcases line with _ | n
  · obtain rfl := Option.some.inj h
    exact hat none (by simp)
  · rw [link?] at h
    split_ifs at h
    obtain rfl := Option.some.inj h
    exact hat _ fun t ht => Option.some.inj ht ▸ ⟨_, rfl⟩

namespace Files

variable {files : Files}

/-- Are the names of all entries, the targets of all links and the names on the way to the working
directory Unicode? -/
structure IsUnicode (files : Files) : Prop extends files.MadeOf CodePoint.IsScalar where
  names : ∀ place entries, files.at? place = some (.directory entries) →
    ∀ entry ∈ entries, entry.1.IsScalar

/-- A walk that comes somewhere has only looked up names of entries. -/
theorem IsUnicode.of_follow (hfiles : files.IsUnicode) (n : Nat) : ∀ {names place dest : List Text},
    files.follow n place names = .ok dest → ∀ name ∈ names, name.IsScalar := by
  induction n using Nat.strongRecOn with
  | ind n ih =>
    intro names
    induction names with
    | nil => exact fun _ _ hname => absurd hname List.not_mem_nil
    | cons name rest ihrest =>
      intro place dest h
      rw [List.forall_mem_cons]
      obtain ⟨entries, hat, ⟨hidle, hrest⟩ | ⟨rfl, hrest⟩ | ⟨-, -, hdown⟩⟩ := follow_cons h
      · rw [isIdle, Bool.or_eq_true, List.isEmpty_iff, beq_iff_eq] at hidle
        rcases hidle with rfl | rfl
        · exact ⟨⟨[], rfl⟩, ihrest hrest⟩
        · exact ⟨⟨_, rfl⟩, ihrest hrest⟩
      · exact ⟨⟨_, rfl⟩, ihrest hrest⟩
      have hname : ∀ node, Entries.get? name entries = some node → name.IsScalar :=
        fun node hget => hfiles.names place entries hat _ (Entries.mem_of_get? hget)
      obtain ⟨target, m, rfl, hget, hrest⟩ | ⟨node, hget, -, hrest⟩ := hdown
      · have hall := ih m (Nat.lt_succ_self m) hrest
        exact ⟨hname _ hget, fun name hmem => hall name (List.mem_append_right _ hmem)⟩
      · exact ⟨hname _ hget, ihrest hrest⟩

/-- A path by which a file is read is Unicode. -/
theorem IsUnicode.of_read (hfiles : files.IsUnicode) {name : Text} {bytes : ByteArray}
    (h : files.read (Path.ofText name).toText = .ok bytes) : name.IsScalar := by
  rcases hlocate : files.locate (Path.ofText name).toText with error | place
  · simp only [read, hlocate] at h
    cases h
  obtain ⟨-, hfollow⟩ := follow_of_locate hlocate
  have hpieces := hfiles.of_follow maxLinks hfollow
  simp only [Text.isScalar_iff] at hpieces ⊢
  rwa [← madeOf_iff_split CodePoint.suitsPaths_isScalar,
    madeOf_toText_ofText_iff CodePoint.suitsPaths_isScalar] at hpieces

end Files

namespace Config

variable {files : Files} {name : Text} {c : Config}

theorem exists_read_of_ofFile {path : Path} (h : ofFile files path = .ok c) :
    ∃ bytes, files.read path.toText = .ok bytes := by
  rcases hread : files.read path.toText with (fault | error) | bytes
  · rw [ofFile_of_unusable hread] at h
    cases h
  · rw [ofFile_of_system hread] at h
    cases h
  · exact ⟨bytes, rfl⟩

/-- What is loaded can be written, if the place of the database is one that can. -/
theorem isWritable_withDbPath_of_load (h : load files name = .ok c) {place : Text}
    (hplace : place.IsScalar) : IsWritable { c with dbPath := place } := by
  obtain ⟨d, -, hfile, -, rfl⟩ := exists_of_load h
  have hd := isWritable_of_ofFile hfile
  exact {
    dbPath := hplace
    title := isScalar_orText ⟨_, rfl⟩ hd.title
    repos := hd.repos.normalized
    maxConcurrentIndexers := by
      change Digits.isWritable (Defaults.orNumber Defaults.maxConcurrentIndexers _) = true
      unfold Defaults.orNumber
      split_ifs
      · decide
      · exact hd.maxConcurrentIndexers
    healthCheckUri := isScalar_orText ⟨_, rfl⟩ hd.healthCheckUri }

/-- What is loaded from Unicode files can be written. The path of the file may come from anywhere. -/
theorem isWritable_of_load (hfiles : files.IsUnicode) (h : load files name = .ok c) :
    c.IsWritable := by
  obtain ⟨d, place, hfile, -, -⟩ := exists_of_load h
  obtain ⟨bytes, hread⟩ := exists_read_of_ofFile hfile
  exact isWritable_withDbPath_of_load h
    (isScalar_dbPath_of_load hfiles.toMadeOf (hfiles.of_read hread) h)

end Config

end SearchConfig
