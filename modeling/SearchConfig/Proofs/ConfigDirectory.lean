import SearchConfig.Proofs.EmptiedFiles
import SearchConfig.Proofs.Filled
import SearchConfig.Proofs.KnownLinks

/-!
# The directory of a configuration

A file is opened by one walk and the directory of its database is found by another. The canonical form
of a path that leads somewhere is the place that it leads to (`Files.canonical_of_leads`), and to open
a file is to look its last name up in a directory to which the names before it lead
(`exists_leads_parent`). So a relative database path is taken from the directory in which the
configuration was really opened, unless on the way there a link is spelled too long to be seen
(`Config.resolveDbPath_of_read`).
-/

namespace SearchConfig

open SearchConfig.Path

namespace Path

theorem anchorOf_joined {parts : List Text} (h : ∀ part ∈ parts, IsName part) :
    anchorOf (joined parts) = .relative := by
  have hhead := Files.head?_joined h
  rcases hjoined : joined parts with _ | ⟨c, t⟩
  · rfl
  · rw [hjoined, List.head?_cons, ne_eq, Option.some.injEq] at hhead
    simp [anchorOf, hhead]

theorem anchorOf_slash_joined {parts : List Text} (h : ∀ part ∈ parts, IsName part) :
    anchorOf (slash :: joined parts) = .root := by
  have hhead := Files.head?_joined h
  rcases hjoined : joined parts with _ | ⟨c, t⟩
  · rfl
  · rw [hjoined, List.head?_cons, ne_eq, Option.some.injEq] at hhead
    simp [anchorOf, hhead]

theorem filter_split_joined {parts : List Text} (h : ∀ part ∈ parts, IsName part) :
    ((joined parts).split slash).filter (fun part => !isIdle part) = parts := by
  rcases parts with _ | ⟨part, parts⟩
  · rfl
  · rw [split_joined (fun part hpart => (h part hpart).1) (List.cons_ne_nil _ _),
      List.filter_eq_self]
    exact fun part hpart => by rw [(h part hpart).2]; rfl

theorem ofText_joined {parts : List Text} (h : ∀ part ∈ parts, IsName part) :
    ofText (joined parts) = ⟨.relative, parts⟩ := by
  rw [ofText, anchorOf_joined h, filter_split_joined h]

theorem ofText_slash_joined {parts : List Text} (h : ∀ part ∈ parts, IsName part) :
    ofText (slash :: joined parts) = ⟨.root, parts⟩ := by
  have hsplit : Text.split slash (slash :: joined parts) = [] :: (joined parts).split slash := by
    rw [Text.split, if_pos rfl]
  rw [ofText, anchorOf_slash_joined h, hsplit, List.filter_cons_of_neg (by decide),
    filter_split_joined h]

theorem not_mem_cleanParts (parts : List Text) : above ∉ cleanParts parts := by
  induction parts using List.reverseRecOn with
  | nil => exact List.not_mem_nil
  | append_singleton parts name ih =>
    by_cases hname : name = above
    · rw [hname, cleanParts_above]
      exact fun hmem => ih (List.dropLast_subset _ hmem)
    · rw [cleanParts_append hname, List.mem_append, List.mem_singleton, not_or]
      exact ⟨ih, Ne.symm hname⟩

end Path

namespace Files

variable {files : Files}

/-- The absolute path of a spot has the names of its place. -/
theorem absolute_toText {s : Spot} (hs : s.IsSpelled) :
    files.absolute s.toText = ⟨.root, s.place files⟩ := by
  rw [absolute, Spot.toText, Spot.place]
  split
  · rename_i habsolute
    rw [ofText_slash_joined hs.names]
    exact congrArg (Path.mk .root) (cleanParts_of_not_mem (hs.above habsolute))
  · rw [ofText_joined hs.names]
    rfl

/-- Is nothing on the way to a place a link, nor what is there? -/
def IsPhysical (files : Files) (place : List Text) : Prop :=
  ∀ way rest, place = way ++ rest → (files.at? way).bind Node.target? = none

theorem isPhysical_of_directory {place : List Text} {entries : List (Text × Node)}
    (h : files.at? place = some (.directory entries)) : files.IsPhysical place := by
  rintro way rest rfl
  rw [at?, Node.at?_append, ← at?] at h
  rcases hway : files.at? way with _ | _ | target | _
  · rfl
  · rfl
  · rw [hway] at h
    rcases rest with _ | _ <;> cases h
  · rfl

theorem advance_ne_linkLoop (place names : List Text) :
    files.advance place names ≠ .failed .linkLoop := by
  induction names generalizing place with
  | nil => simp [advance]
  | cons name names ih =>
    rw [advance]
    split
    · split
      · exact ih _
      split
      · exact ih _
      split
      · simp
      split
      · simp
      · simp
      · exact ih _
    · simp

/-- A walk along the names of a place meets no link if there is none on the way. -/
theorem advance_ne_atLink {place names : List Text} (h : files.IsPhysical (place ++ names))
    (hnames : ∀ name ∈ names, isIdle name = false ∧ name ≠ above) {at_ rest : List Text}
    {target : Text} : files.advance place names ≠ .atLink at_ target rest := by
  induction names generalizing place with
  | nil => simp [advance]
  | cons name names ih =>
    obtain ⟨⟨hidle, habove⟩, hnames⟩ := List.forall_mem_cons.1 hnames
    rw [advance]
    split
    · rename_i entries hat
      rw [if_neg (by simp [hidle]), if_neg habove]
      split
      · simp
      have hlink := h (place ++ [name]) names (by simp)
      rw [at?_down hat] at hlink
      split
      · simp
      · rename_i hget
        rw [hget] at hlink
        cases hlink
      · exact ih (by simpa using h) hnames
    · simp

theorem locate_ne_linkLoop {dir : List Text} (h : files.IsPhysical dir)
    (hnames : ∀ name ∈ dir, IsName name ∧ name ≠ above) :
    files.locate (toText ⟨.root, dir⟩) ≠ .error (.system .linkLoop) := by
  have htext : toText ⟨.root, dir⟩ = slash :: joined dir := rfl
  have hadvance : files.advance [] (Text.split slash (slash :: joined dir))
      = files.advance [] dir := by
    have hidle : ∀ names, files.advance [] ([] :: names) = files.advance [] names := fun _ => rfl
    rw [Text.split, if_pos rfl, hidle]
    rcases dir with _ | ⟨name, dir⟩
    · exact hidle []
    · rw [split_joined (fun part hpart => (hnames part hpart).1.1) (List.cons_ne_nil _ _)]
  have hfollow : files.follow maxLinks [] (Text.split slash (slash :: joined dir))
      ≠ .error .linkLoop := by
    rw [follow, hadvance]
    rcases hdir : files.advance [] dir with place | ⟨at_, target, rest⟩ | error
    · simp
    · exact absurd hdir (advance_ne_atLink h fun name hname =>
        ⟨(hnames name hname).1.2, (hnames name hname).2⟩)
    · intro heq
      exact advance_ne_linkLoop [] dir (hdir.trans (congrArg _ (Except.error.inj heq)))
  have horigin : origin files.workingDirectory (slash :: joined dir) = [] := if_pos rfl
  rw [locate, htext, horigin]
  split
  · simp
  split
  · simp
  rcases hwalk : files.follow maxLinks [] (Text.split slash (slash :: joined dir)) with error | place
  · intro heq
    have herror : error = .linkLoop := PathError.system.inj (Except.error.inj heq)
    exact hfollow (herror ▸ hwalk)
  · simp [Except.mapError]

/-- Does the operating system take the targets of all links, and is the working directory reached by
names alone? -/
structure IsWalkable (files : Files) : Prop extends files.IsUsable where
  named : ∀ name ∈ files.workingDirectory, IsName name ∧ name ≠ above

theorem isWalkable_of_linkPlaces
    (htargets : ∀ place ∈ files.root.linkPlaces,
      ∀ target ∈ (files.at? place).bind Node.target?, target.IsUsable)
    (hcurrent : ∀ name ∈ files.workingDirectory, name.IsUsable ∧ IsName name ∧ name ≠ above) :
    files.IsWalkable where
  targets place target h := htargets place (Node.mem_linkPlaces h) target <| by
    rw [h]
    rfl
  workingDirectory name hname := (hcurrent name hname).1
  named name hname := (hcurrent name hname).2

theorem IsWalkable.place (hfiles : files.IsWalkable) {s : Spot} (hs : s.IsSpelled) :
    ∀ name ∈ s.place files, IsName name ∧ name ≠ above := by
  intro name hname
  unfold Spot.place at hname
  split at hname
  · rename_i habsolute
    exact ⟨hs.names name hname, fun heq => hs.above habsolute (heq ▸ hname)⟩
  · refine ⟨?_, fun heq => not_mem_cleanParts _ (heq ▸ hname)⟩
    rcases List.mem_append.1 (mem_of_mem_cleanParts hname) with hmem | hmem
    · exact (hfiles.named name hmem).1
    · exact hs.names name hmem

theorem isSpelled_start (p : Path) : (start p).IsSpelled := Spot.isSpelled_nil _

theorem IsWalkable.place_start (hfiles : files.IsWalkable) {p : Path}
    (hp : ∀ part ∈ p.parts, IsName part) :
    (start p).place files = origin files.workingDirectory p.toText := by
  unfold origin Spot.place start
  rw [List.append_nil, cleanParts_of_not_mem fun hmem => (hfiles.named _ hmem).2 rfl]
  simp only [head?_toText hp]

section Canonical

variable (hfiles : files.IsWalkable) {p : Path} (hp : ∀ part ∈ p.parts, IsName part)
  (husable : ∀ part ∈ p.parts, part.IsUsable) {met : List Meeting} {found : Spot}
  (h : files.Leads (start p) p.parts met found)
  (hmet : ∀ link ∈ met, link.IsFollowed files.linkDepth)

include hfiles hp husable h hmet

/-- The search finds where a path leads if it follows every link that is met. -/
theorem walk_of_leads :
    ∃ memo, files.walk p = .ok (memo, .whole found) ∧ memo.IsSound files := by
  obtain ⟨memo, hwalk, hsound, -⟩ := resolveNames_of_leads hfiles.toIsUsable h (isSpelled_start p)
    (fun name hname => (hp name hname).1) husable hmet (Memo.isSound_nil files)
    (Memo.isOpen_nil files _)
  exact ⟨memo, (walk_eq hp).trans hwalk, hsound⟩

/-- The canonical form of a path is the place that it leads to, if no link is on the way to there. -/
theorem canonical_of_isPhysical (hphysical : files.IsPhysical (found.place files)) :
    files.canonical p = .ok (toText ⟨.root, found.place files⟩) := by
  obtain ⟨memo, hwalk, -⟩ := walk_of_leads hfiles hp husable h hmet
  have hfound := h.isSpelled (isSpelled_start p) fun name hname => (hp name hname).1
  have hunusable := canonical_of_isUsable hfiles.toIsUsable husable
  have hloop := locate_ne_linkLoop hphysical (hfiles.place hfound)
  have hcanonical := canonical_of_walk hwalk
  rw [Resolved.final, absolute_toText hfound] at hcanonical
  rw [hcanonical] at hunusable ⊢
  split
  · rename_i fault heq
    rw [heq] at hunusable
    exact absurd rfl (hunusable fault)
  · exact absurd ‹_› hloop
  · rfl

/-- The canonical form of a path that leads to a directory is the place of that directory. -/
theorem canonical_of_leads {entries : List (Text × Node)}
    (hdirectory : files.at? (found.place files) = some (.directory entries)) :
    (∃ memo, files.walk p = .ok (memo, .whole found) ∧ memo.IsSound files)
      ∧ files.canonical p = .ok (toText ⟨.root, found.place files⟩) :=
  ⟨walk_of_leads hfiles hp husable h hmet,
    canonical_of_isPhysical hfiles hp husable h hmet (isPhysical_of_directory hdirectory)⟩

end Canonical

/-- The last name of a path is looked up in the place that the walk along the names before it comes
to. -/
def LooksUpIn (files : Files) (path : Text) (place : List Text) : Prop :=
  files.follow maxLinks (origin files.workingDirectory path) (path.split slash).dropLast = .ok place

/-- Does the walk along a path meet a link whose spot is spelled too long for it to be seen? -/
def OverlooksLink (files : Files) (p : Path) : Prop :=
  ∃ met found link, files.Leads (start p) p.parts met found ∧ link ∈ met
    ∧ pathLimit ≤ link.spot.toText.size

theorem Leads.overlooksLink_iff {p : Path} {met : List Meeting} {found : Spot}
    (h : files.Leads (start p) p.parts met found) :
    files.OverlooksLink p ↔ ∃ link ∈ met, pathLimit ≤ link.spot.toText.size :=
  h.exists_met_iff _

theorem split_toText {p : Path} (h : ∀ part ∈ p.parts, IsName part) :
    ∃ idle, (∀ name ∈ idle, isIdle name = true) ∧ p.toText.split slash = idle ++ p.parts := by
  have hslash : ∀ t : Text, Text.split slash (slash :: t) = [] :: t.split slash := fun t => by
    rw [Text.split, if_pos rfl]
  have hjoined : ∃ idle, (∀ name ∈ idle, isIdle name = true)
      ∧ (joined p.parts).split slash = idle ++ p.parts := by
    rcases hparts : p.parts with _ | ⟨part, parts⟩
    · exact ⟨[[]], by decide, rfl⟩
    · rw [← hparts, split_joined (fun part hpart => (h part hpart).1) (by simp [hparts])]
      exact ⟨[], by simp, rfl⟩
  obtain ⟨idle, hidle, hsplit⟩ := hjoined
  have hcons : ∀ name ∈ [] :: idle, isIdle name = true := List.forall_mem_cons.2 ⟨rfl, hidle⟩
  unfold toText
  split
  · split
    · rename_i hnil
      rw [List.isEmpty_iff.1 hnil]
      exact ⟨[here], by decide, rfl⟩
    · exact ⟨idle, hidle, hsplit⟩
  · rw [hslash, hsplit]
    exact ⟨[] :: idle, hcons, rfl⟩
  · rw [hslash, hslash, hsplit]
    exact ⟨[] :: [] :: idle, List.forall_mem_cons.2 ⟨rfl, hcons⟩, rfl⟩

theorem follow_idle {n : Nat} {place dest idle names : List Text}
    (hidle : ∀ name ∈ idle, isIdle name = true)
    (h : files.follow n place (idle ++ names) = .ok dest) :
    files.follow n place names = .ok dest
      ∧ (idle ≠ [] → ∃ entries, files.at? place = some (.directory entries)) := by
  induction idle with
  | nil => exact ⟨h, fun hne => absurd rfl hne⟩
  | cons name idle ih =>
    obtain ⟨hname, hidle⟩ := List.forall_mem_cons.1 hidle
    obtain ⟨entries, hat, ⟨-, h⟩ | ⟨rfl, -⟩ | ⟨hname', -⟩⟩ := follow_cons h
    · exact ⟨(ih hidle h).1, fun _ => ⟨entries, hat⟩⟩
    · exact absurd hname (by decide)
    · simp [hname] at hname'

theorem follow_of_locate {path : Text} {place : List Text} (h : files.locate path = .ok place) :
    path.IsUsable ∧ files.follow maxLinks (origin files.workingDirectory path) (path.split slash)
      = .ok place := by
  unfold locate at h
  split at h
  · cases h
  · split at h
    · cases h
    · rcases hfollow : files.follow maxLinks (origin files.workingDirectory path)
        (path.split slash) with error | dest
      · rw [hfollow] at h
        cases h
      · rw [hfollow] at h
        exact ⟨‹_›, congrArg _ (Except.ok.inj h)⟩

/-- The last name of a file that is read is looked up in a directory to which a spelled walk leads
along the names before it. No link on the way is inside of as many as the system follows. -/
theorem exists_leads_parent (hfiles : files.IsWalkable) {p : Path}
    (hp : ∀ part ∈ p.parts, IsName part) {bytes : ByteArray}
    (hread : files.read p.toText = .ok bytes) :
    (∀ part ∈ p.parts, part.IsUsable) ∧ ∃ met found entries,
      files.Leads (start p.parent) p.parent.parts met found ∧ (∀ link ∈ met, link.depth < maxLinks)
        ∧ files.LooksUpIn p.toText (found.place files)
        ∧ files.at? (found.place files) = some (.directory entries) := by
  rcases hlocate : files.locate p.toText with error | place
  · simp only [read, hlocate] at hread
    cases hread
  rw [read_of_locate hlocate] at hread
  obtain ⟨husable, hfollow⟩ := follow_of_locate hlocate
  obtain ⟨idle, hidle, hsplit⟩ := split_toText hp
  refine ⟨(isUsable_toText_iff p).1 husable, ?_⟩
  -- Without a name the walk would stay in the directory that it begins in.
  have hne : p.parts ≠ [] := by
    intro hnil
    rw [hsplit, hnil] at hfollow
    obtain ⟨hdest, hdirectory⟩ := follow_idle hidle hfollow
    have hne : idle ≠ [] := by
      rintro rfl
      rw [hnil] at hsplit
      exact Text.split_ne_nil slash _ hsplit
    obtain ⟨entries, hat⟩ := hdirectory hne
    obtain rfl : origin files.workingDirectory p.toText = place := by
      rw [follow] at hdest
      exact Except.ok.inj hdest
    rw [hat] at hread
    cases hread
  obtain ⟨last, hlast⟩ : ∃ last, p.parts = p.parts.dropLast ++ [last] :=
    ⟨p.parts.getLast hne, (List.dropLast_append_getLast hne).symm⟩
  have hsplit' : p.toText.split slash = (idle ++ p.parts.dropLast) ++ [last] := by
    rw [List.append_assoc, ← hlast, hsplit]
  rw [hsplit'] at hfollow
  obtain ⟨m, dir, -, hdir, hlookup⟩ := follow_append hfollow
  obtain ⟨entries, hat, -⟩ := follow_cons hlookup
  have hlooks : files.LooksUpIn p.toText dir := by
    rw [LooksUpIn, hsplit', List.dropLast_concat]
    exact hdir
  have hwalk := (follow_idle hidle hdir).1
  rw [← hfiles.place_start hp] at hwalk
  obtain ⟨met, found, hleads, hmet, rfl⟩ := exists_leads maxLinks (isSpelled_start p)
    (fun name hname => (hp name (List.dropLast_subset _ hname)).1) hwalk
  exact ⟨met, found, entries, hleads, hmet, hlooks, hat⟩

end Files

open Files

theorem Path.append_empty (p : Path) : p.append (.ofText []) = p := by
  have hempty : ofText [] = ⟨.relative, []⟩ := rfl
  rw [append, hempty, if_neg (by decide), List.append_nil]

theorem Config.resolveDbPath_empty {files : Files} {config : Path} {place : Text} :
    resolveDbPath files [] config = .ok place ↔ files.canonical config.parent = .ok place := by
  have hempty : ¬ (Path.ofText []).isAbsolute = true := by decide
  rw [resolveDbPath, if_neg hempty, append_empty]
  rcases files.canonical config.parent with (fault | _ | _) | place' <;> simp

/-- A file that is read is looked up in a directory that is reached without links. A relative
database path is taken from there, and an empty one is the place of that directory, unless a link on
the way is overlooked because its spot is spelled too long. -/
theorem Config.resolveDbPath_of_read {files : Files} (hfiles : files.IsWalkable) {name : Text}
    {bytes : ByteArray} (hread : files.read (Path.ofText name).toText = .ok bytes) :
    ∃ dir entries, files.LooksUpIn (Path.ofText name).toText dir
      ∧ files.at? dir = some (.directory entries) ∧ files.IsPhysical dir
      ∧ (¬ files.OverlooksLink (Path.ofText name).parent →
        resolveDbPath files [] (.ofText name) = .ok (Path.toText ⟨.root, dir⟩)
        ∧ ∃ (memo : Memo) (spot : Spot), memo.IsSound files ∧ spot.place files = dir
          ∧ ∀ dbPath, (Path.ofText dbPath).isAbsolute = false →
            files.walk ((Path.ofText name).parent.append (.ofText dbPath))
              = resolveNames files (files.resolve files.linkDepth) memo spot
                (Path.ofText dbPath).parts) := by
  have hp : ∀ part ∈ (Path.ofText name).parts, IsName part := fun _ => isName_of_mem_ofText
  have hparent : ∀ part ∈ (Path.ofText name).parent.parts, IsName part := isName_of_mem_parent
  obtain ⟨husable, met, found, entries, hleads, hdepth, hlooks, hat⟩ :=
    exists_leads_parent hfiles hp hread
  refine ⟨_, entries, hlooks, hat, isPhysical_of_directory hat, fun hseen => ?_⟩
  have hmet : ∀ link ∈ met, link.IsFollowed files.linkDepth := fun link hlink =>
    { short := Nat.not_le.1 fun hlong => hseen ⟨met, found, link, hleads, hlink, hlong⟩
      shallow := Nat.lt_of_lt_of_le (hdepth link hlink) (Nat.le_add_right _ _) }
  obtain ⟨⟨memo, hwalk, hsound⟩, hcanonical⟩ := canonical_of_leads hfiles hparent
    (fun part hpart => husable part (List.dropLast_subset _ hpart)) hleads hmet hat
  refine ⟨?_, memo, found, hsound, rfl, fun dbPath hrelative => ?_⟩
  · exact resolveDbPath_empty.2 hcanonical
  · have happend : (Path.ofText name).parent.append (.ofText dbPath)
        = ⟨(Path.ofText name).anchor,
          (Path.ofText name).parent.parts ++ (Path.ofText dbPath).parts⟩ := by
      rw [append, if_neg (by simp [hrelative])]
      rfl
    rcases hparts : (Path.ofText dbPath).parts with _ | ⟨part, parts⟩
    · rw [happend, hparts, List.append_nil]
      exact hwalk
    · rw [walk_append files (isName_of_mem_append hparent fun _ => isName_of_mem_ofText)
        (congrArg Path.parts happend) (by simp [hparts]), happend, hparts]
      exact congrArg (Except.bind · _) hwalk

/-- A directory in which the system comes to by a link and a step upwards. The file is a link itself,
to another directory. -/
theorem Config.resolveDbPath_of_read_above :
    let files : Files := ⟨[("l", .link "d/e"), ("r.json", .file .empty),
      ("d", .directory [("e", .directory []), ("c.json", .link "../r.json")])], [], 0⟩
    files.IsWalkable ∧ files.read "l/../c.json" = .ok .empty
      ∧ files.LooksUpIn "l/../c.json" ["d"]
      ∧ resolveDbPath files [] (.ofText "l/../c.json") = .ok "/d" := by
  intro files
  have hwalkable : files.IsWalkable :=
    isWalkable_of_linkPlaces (by decide) (List.forall_mem_nil _)
  have hread : files.read (Path.ofText "l/../c.json").toText = .ok .empty := rfl
  have hlooks : files.LooksUpIn "l/../c.json" ["d"] := by
    rw [LooksUpIn]
    decide
  obtain ⟨dir, entries, hdir, -, -, hseen⟩ := resolveDbPath_of_read hwalkable hread
  obtain rfl : ([("d" : Text)]) = dir := Except.ok.inj (hlooks.symm.trans hdir)
  refine ⟨hwalkable, hread, hlooks, (hseen ?_).1⟩
  have hinside : files.Leads ⟨false, []⟩ [("d" : Text), ("e" : Text)] [] ⟨false, ["d", "e"]⟩ :=
    .down rfl (by decide) rfl (.down rfl (by decide) rfl .arrived)
  have hafter : files.Leads ⟨false, ["d", "e"]⟩ [(".." : Text)] [] ⟨false, ["d"]⟩ :=
    .up rfl .arrived
  have habove : ("l" : Text) ≠ above := by decide
  have hlink : files.Leads ⟨false, []⟩ ["l", ".."]
      (⟨Spot.down ⟨false, []⟩ "l", 0⟩ :: ([].map Meeting.inside ++ [])) ⟨false, ["d"]⟩ :=
    .link rfl habove rfl hinside hafter
  rw [hlink.overlooksLink_iff]
  decide

/-- A name of the greatest length. -/
def Files.longName : Text := List.replicate maxName (.scalar 'd')

/-- A link in the seventeenth of directories with names of the greatest length, to which two links
lead. The last link to a directory is met at a spot of more bytes than a path may have. -/
def Files.deepLinks : Files :=
  let files : Files := ⟨[("l", .link (joined (List.replicate 15 longName))),
    ("real", .directory [("c.json", .file .empty)])], [], 0⟩
  let below := files.plant (List.replicate 15 longName ++ [("k" : Text)])
    (.link (joined [longName, longName]))
  below.plant (List.replicate 17 longName ++ [("m" : Text)]) (.link "/real")

/-- A link that is overlooked is taken for a directory: the database is not put where the
configuration was opened. -/
theorem Config.resolveDbPath_deepLinks :
    Files.deepLinks.read "l/k/m/c.json" = .ok .empty
      ∧ Files.deepLinks.LooksUpIn "l/k/m/c.json" ["real"]
      ∧ resolveDbPath .deepLinks [] (.ofText "l/k/m/c.json") ≠ .ok "/real" := by
  refine ⟨?_, ?_, fun h => ?_⟩
  · have hlocate : Files.deepLinks.locate "l/k/m/c.json" = .ok ["real", "c.json"] := by
      decide +kernel
    rw [read_of_locate hlocate]
    rfl
  · rw [LooksUpIn]
    decide +kernel
  · rw [resolveDbPath_empty] at h
    revert h
    decide +kernel

end SearchConfig
