import SearchConfig.Proofs.Filled
import SearchConfig.Proofs.Placeholders

/-!
# Two spellings of a remote

The remotes `git@host:path` and `https://host/path` name the same place. Neither the colon, the
slash nor the at sign stands in the ending `.git` or in the mark of Azure DevOps, so these are
looked for in the host and the path alone. So a repository with the one remote is completed with the
same pattern as with the other, and its files have the same links, in which the remote stands as one
address (`spellings_link_alike`).
-/

namespace SearchConfig

namespace Text

theorem dropBeginning?_eq_some_iff :
    ∀ {t beginning rest : Text}, dropBeginning? t beginning = some rest ↔ t = beginning ++ rest
  | t, [], rest => by simp [dropBeginning?]
  | [], b :: beginning, rest => by simp [dropBeginning?]
  | a :: t, b :: beginning, rest => by
    rw [dropBeginning?, List.cons_append, List.cons.injEq]
    split
    · rename_i h
      rw [dropBeginning?_eq_some_iff]
      exact (and_iff_right h).symm
    · rename_i h
      simp [h]

theorem dropEnding?_eq_some_iff {t ending rest : Text} :
    dropEnding? t ending = some rest ↔ t = rest ++ ending := by
  rw [dropEnding?, Option.map_eq_some_iff]
  constructor
  · rintro ⟨s, hs, rfl⟩
    rw [dropBeginning?_eq_some_iff, List.reverse_eq_iff] at hs
    rw [hs, List.reverse_append, List.reverse_reverse]
  · rintro rfl
    refine ⟨rest.reverse, ?_, List.reverse_reverse rest⟩
    rw [dropBeginning?_eq_some_iff, List.reverse_append]

/-- An ending that lacks a code point is looked for behind that code point. -/
theorem dropEnding?_append_cons {c : CodePoint} {ending : Text} (hc : c ∉ ending) (s t : Text) :
    dropEnding? (s ++ c :: t) ending = (dropEnding? t ending).map (s ++ c :: ·) := by
  ext rest
  rw [dropEnding?_eq_some_iff, Option.map_eq_some_iff]
  constructor
  · intro h
    rcases List.append_eq_append_iff.1 h with ⟨front, rfl, hfront⟩ | ⟨_, -, rfl⟩
    · rcases front with _ | ⟨d, front⟩
      · rw [List.nil_append] at hfront
        exact absurd (hfront ▸ List.mem_cons_self) hc
      · obtain ⟨rfl, rfl⟩ := List.cons.inj hfront
        exact ⟨front, dropEnding?_eq_some_iff.2 rfl, rfl⟩
    · exact absurd (List.mem_append_right _ List.mem_cons_self) hc
  · rintro ⟨front, hfront, rfl⟩
    rw [dropEnding?_eq_some_iff.1 hfront, List.append_assoc, List.cons_append]

theorem occursIn_iff {needle : Text} : ∀ {t : Text}, occursIn needle t = true ↔ needle <:+: t
  | [] => by rw [occursIn, List.isEmpty_iff, List.infix_nil]
  | c :: t => by
    rw [occursIn, Bool.or_eq_true, List.isPrefixOf_iff_prefix, occursIn_iff, List.infix_cons_iff]

/-- What lacks a code point occurs before it or behind it. -/
theorem infix_append_cons_iff {c : CodePoint} {needle : Text} (hc : c ∉ needle) (t : Text) :
    ∀ s : Text, needle <:+: s ++ c :: t ↔ needle <:+: s ∨ needle <:+: t
  | [] => by
    have hprefix : needle <+: c :: t ↔ needle <+: [] := prefix_append_cons_iff (x := []) hc
    rw [List.nil_append, List.infix_cons_iff, hprefix, List.prefix_nil, List.infix_nil]
  | d :: s => by
    have hprefix : needle <+: d :: (s ++ c :: t) ↔ needle <+: d :: s :=
      prefix_append_cons_iff (x := d :: s) hc
    rw [List.cons_append, List.infix_cons_iff, hprefix, infix_append_cons_iff hc t s,
      List.infix_cons_iff, or_assoc]

end Text

namespace Remote

variable {host path : Text}

/-- The remote of a path on a host as it is spelled for a secure shell. -/
def shellSpelling (host path : Text) : Text := "git@" ++ host ++ ":" ++ path

/-- The remote of a path on a host as it is spelled for the web. -/
def webSpelling (host path : Text) : Text := "https://" ++ host ++ "/" ++ path

theorem shellSpelling_eq (host path : Text) :
    shellSpelling host path = "git" ++ .scalar '@' :: (host ++ .scalar ':' :: path) := by
  simp [shellSpelling, Text.ofString, Text.ofChars]

theorem webSpelling_eq (host path : Text) :
    webSpelling host path = "https:/" ++ .scalar '/' :: (host ++ .scalar '/' :: path) := by
  simp [webSpelling, Text.ofString, Text.ofChars]

/-- The ending is looked for behind a code point that does not stand in it. -/
theorem withoutEnding_append_cons {c : CodePoint} (hc : c ∉ (".git\n" : Text)) (s t : Text) :
    withoutEnding (s ++ c :: t) = s ++ c :: withoutEnding t := by
  have hcons : (".git\n" : Text) = ".git" ++ [newline] := rfl
  have hc' : c ∉ (".git" : Text) := fun h => hc (hcons ▸ List.mem_append_left [newline] h)
  rw [withoutEnding, Text.dropEnding?_append_cons hc', Text.dropEnding?_append_cons hc,
    withoutEnding]
  rcases Text.dropEnding? t ".git" with _ | rest
  · rcases Text.dropEnding? t ".git\n" with _ | rest
    · rfl
    · simp
  · rfl

theorem withoutEnding_append_cons_append {c d : CodePoint} (hd : d ∉ (".git\n" : Text))
    (front host path : Text) : withoutEnding (front ++ c :: (host ++ d :: path))
      = front ++ c :: (host ++ d :: withoutEnding path) := by
  rw [← List.cons_append, ← List.append_assoc, withoutEnding_append_cons hd, List.append_assoc,
    List.cons_append]

/-- Is the second path the first one less one ending `.git`? -/
def IsWithoutEnding (path rest : Text) : Prop :=
  path = rest ++ ".git" ∨ rest = path ∧ ¬ (".git" : Text) <:+ path

theorem isWithoutEnding (hline : newline ∉ path) : IsWithoutEnding path (withoutEnding path) := by
  have hlast : Text.dropEnding? path ".git\n" = none := by
    rw [Option.eq_none_iff_forall_ne_some]
    rintro rest hrest
    rw [Text.dropEnding?_eq_some_iff.1 hrest] at hline
    exact hline (List.mem_append_right _ (by decide))
  rw [withoutEnding, hlast]
  rcases h : Text.dropEnding? path ".git" with _ | rest
  · refine .inr ⟨rfl, ?_⟩
    rintro ⟨rest, rfl⟩
    rw [Text.dropEnding?_eq_some_iff.2 rfl] at h
    cases h
  · exact .inl (Text.dropEnding?_eq_some_iff.1 h)

theorem IsWithoutEnding.ne_nil {rest : Text} (h : IsWithoutEnding path rest) (hpath : path ≠ [])
    (hending : path ≠ ".git") : rest ≠ [] := by
  rintro rfl
  rcases h with rfl | ⟨rfl, -⟩
  · exact hending rfl
  · exact hpath rfl

theorem IsWithoutEnding.subset {rest : Text} (h : IsWithoutEnding path rest) : rest ⊆ path := by
  rcases h with rfl | ⟨rfl, -⟩
  · exact List.subset_append_left _ _
  · exact List.Subset.refl _

theorem hostAndPath?_shellSpelling (hhost : host ≠ []) (hcolon : .scalar ':' ∉ host)
    (hpath : path ≠ []) (hline : newline ∉ path) :
    hostAndPath? (shellSpelling host path) = some (host, path) := by
  have hhostPoints : ∀ c ∈ host, (c != .scalar ':') = true := fun c hc =>
    bne_iff_ne.2 fun h => hcolon (h ▸ hc)
  have hpathPoints : ∀ c ∈ path, (c != newline) = true := fun c hc =>
    bne_iff_ne.2 fun h => hline (h ▸ hc)
  have hbeginning : (shellSpelling host path).dropBeginning? "git@"
      = some (host ++ .scalar ':' :: path) := by
    rw [Text.dropBeginning?_eq_some_iff]
    simp [shellSpelling, Text.ofString, Text.ofChars]
  have htakenHost : (host ++ .scalar ':' :: path).takeWhile (· != .scalar ':') = host := by
    rw [List.takeWhile_append_of_pos hhostPoints]
    simp
  have htakenPath : ((host ++ .scalar ':' :: path).drop (host.length + 1)).takeWhile (· != newline)
      = path := by
    have hdrop : (host ++ .scalar ':' :: path).drop (host.length + 1) = path := by
      simp [List.drop_append]
    rw [hdrop, List.takeWhile_eq_self_iff.2 hpathPoints]
  simp only [hostAndPath?, hbeginning, htakenHost, htakenPath, List.isEmpty_iff, hhost, hpath,
    Bool.or_eq_true, or_self, if_false]

theorem hostAndPath?_webSpelling (host path : Text) :
    hostAndPath? (webSpelling host path) = none := rfl

theorem webAddress_webSpelling (host path : Text) :
    webAddress (webSpelling host path) = webSpelling host (withoutEnding path) := by
  have hwithout : withoutEnding (webSpelling host path)
      = webSpelling host (withoutEnding path) := by
    rw [webSpelling_eq, withoutEnding_append_cons_append (by decide), ← webSpelling_eq]
  simp only [webAddress, hwithout, hostAndPath?_webSpelling]

theorem webAddress_shellSpelling (hhost : host ≠ []) (hcolon : .scalar ':' ∉ host)
    (hpath : path ≠ []) (hending : path ≠ ".git") (hline : newline ∉ path) :
    webAddress (shellSpelling host path) = webSpelling host (withoutEnding path) := by
  have hrest := isWithoutEnding hline
  have hwithout : withoutEnding (shellSpelling host path)
      = shellSpelling host (withoutEnding path) := by
    rw [shellSpelling_eq, withoutEnding_append_cons_append (by decide), ← shellSpelling_eq]
  have hparts := hostAndPath?_shellSpelling hhost hcolon (hrest.ne_nil hpath hending)
    fun h => hline (hrest.subset h)
  simp only [webAddress, hwithout, hparts]
  rfl

/-- The mark of Azure DevOps is longer than what stands in front of a host. -/
theorem azureMarker_infix_iff {c d : CodePoint} {front : Text}
    (hlength : front.length < Defaults.azureMarker.length) (hc : c ∉ Defaults.azureMarker)
    (hd : d ∉ Defaults.azureMarker) (host path : Text) :
    Defaults.azureMarker <:+: front ++ c :: (host ++ d :: path)
      ↔ Defaults.azureMarker <:+: host ∨ Defaults.azureMarker <:+: path := by
  have hfront : ¬ Defaults.azureMarker <:+: front := fun h => Nat.not_lt.2 h.length_le hlength
  rw [Text.infix_append_cons_iff hc, Text.infix_append_cons_iff hd, or_iff_right hfront]

theorem patternFor_shellSpelling (host path : Text) :
    Defaults.patternFor (shellSpelling host path)
      = Defaults.patternFor (webSpelling host path) := by
  have hoccurs : Text.occursIn Defaults.azureMarker (shellSpelling host path)
      = Text.occursIn Defaults.azureMarker (webSpelling host path) := by
    rw [Bool.eq_iff_iff, Text.occursIn_iff, Text.occursIn_iff, shellSpelling_eq, webSpelling_eq,
      azureMarker_infix_iff (by decide) (by decide) (by decide),
      azureMarker_infix_iff (by decide) (by decide) (by decide)]
  rw [Defaults.patternFor, Defaults.patternFor, hoccurs]

end Remote

namespace Repository

/-- The repository with another remote. -/
def withUrl (r : Repository) (url : Text) : Repository := { r with url := url }

/-- A completed pattern depends on the remote only through the pattern of its host. -/
theorem urlPattern_normalized_withUrl {url url' : Text}
    (h : Defaults.patternFor url = Defaults.patternFor url') (r : Repository) :
    (r.withUrl url).normalized.urlPattern = (r.withUrl url').normalized.urlPattern := by
  simp only [normalized, RepositoryOf.withPattern, withUrl, h]

end Repository

namespace Linker

/-- Are all links the base URL with the address for the remote, the path of the file without slashes
in front, and the anchor of the line? -/
def Inserts (linker : Linker) (address : Text) : Prop :=
  ∀ (file : Text) (line : Option Int), (∀ n ∈ line, Digits.isWritable n = true) →
    linker.link? file line = some (Template.expand linker.pattern.baseUrl [
      ("url", address),
      ("path", file.dropWhile (· == .scalar '/')),
      ("anchor", line.elim [] fun n =>
        Template.expand linker.pattern.anchor [("line", Text.ofInt n)])])

theorem inserts_of_webAddress {linker : Linker} {address : Text}
    (h : Remote.webAddress linker.remote = address) : linker.Inserts address := by
  subst h
  intro file line hline
  rcases line with _ | n
  · rfl
  · rw [link?, if_pos (hline n rfl)]
    rfl

theorem link?_of_webAddress {remote remote' : Text}
    (h : Remote.webAddress remote = Remote.webAddress remote') (pattern : UrlPattern) (path : Text)
    (line : Option Int) :
    link? ⟨remote, pattern⟩ path line = link? ⟨remote', pattern⟩ path line := by
  have hlinkAt : ∀ line, linkAt ⟨remote, pattern⟩ path line = linkAt ⟨remote', pattern⟩ path line :=
    fun line => by simp only [linkAt, h]
  rcases line with _ | n <;> simp only [link?, hlinkAt]

end Linker

open Remote in
/-- Whatever else a repository has, it is completed with the same pattern for both spellings of its
remote, and its files have the same links, in which the remote stands as the address of the path
less one ending on the host. -/
theorem spellings_link_alike (r : Repository) (host path : Text) (hhost : host ≠ [])
    (hcolon : .scalar ':' ∉ host) (hpath : path ≠ []) (hending : path ≠ ".git")
    (hline : newline ∉ path) :
    let shell := (r.withUrl (shellSpelling host path)).normalized
    let web := (r.withUrl (webSpelling host path)).normalized
    shell.urlPattern = web.urlPattern
      ∧ ∃ linker linker' rest, Linker.ofRepository shell = .ok linker
        ∧ Linker.ofRepository web = .ok linker'
        ∧ (∀ file line, linker.link? file line = linker'.link? file line)
        ∧ IsWithoutEnding path rest
        ∧ webAddress linker.remote = "https://" ++ host ++ "/" ++ rest
        ∧ webAddress linker'.remote = "https://" ++ host ++ "/" ++ rest
        ∧ linker.Inserts ("https://" ++ host ++ "/" ++ rest)
        ∧ linker'.Inserts ("https://" ++ host ++ "/" ++ rest) := by
  intro shell web
  have hpattern : shell.urlPattern = web.urlPattern :=
    Repository.urlPattern_normalized_withUrl (patternFor_shellSpelling host path) r
  obtain ⟨pattern, hweb⟩ : ∃ pattern, web.urlPattern = some pattern := ⟨_, rfl⟩
  have hshellAddress := webAddress_shellSpelling hhost hcolon hpath hending hline
  have hwebAddress := webAddress_webSpelling host path
  refine ⟨hpattern, ⟨shell.url, pattern⟩, ⟨web.url, pattern⟩, withoutEnding path, ?_, ?_, ?_,
    isWithoutEnding hline, hshellAddress, hwebAddress, Linker.inserts_of_webAddress hshellAddress,
    Linker.inserts_of_webAddress hwebAddress⟩
  · rw [Linker.ofRepository, hpattern, hweb]
  · rw [Linker.ofRepository, hweb]
  · exact Linker.link?_of_webAddress (hshellAddress.trans hwebAddress.symm) pattern

/-- A path that has the mark of Azure DevOps, looks like a remote itself and has two endings. -/
theorem spellings_link_alike_marked :
    let r : Repository := ⟨[], 0, [], none, none, false, none, none⟩
    let shell := (r.withUrl "git@h:git@visualstudio.com:p.git.git").normalized
    let web := (r.withUrl "https://h/git@visualstudio.com:p.git.git").normalized
    shell.urlPattern = web.urlPattern
      ∧ ∃ linker linker' rest, Linker.ofRepository shell = .ok linker
        ∧ Linker.ofRepository web = .ok linker'
        ∧ (∀ file line, linker.link? file line = linker'.link? file line)
        ∧ Remote.IsWithoutEnding "git@visualstudio.com:p.git.git" rest
        ∧ Remote.webAddress linker.remote = "https://" ++ "h" ++ "/" ++ rest
        ∧ Remote.webAddress linker'.remote = "https://" ++ "h" ++ "/" ++ rest
        ∧ linker.Inserts ("https://" ++ "h" ++ "/" ++ rest)
        ∧ linker'.Inserts ("https://" ++ "h" ++ "/" ++ rest) :=
  spellings_link_alike ⟨[], 0, [], none, none, false, none, none⟩ "h"
    "git@visualstudio.com:p.git.git" (by decide) (by decide) (by decide) (by decide) (by decide)

end SearchConfig
