import SearchConfig.Proofs.Placeholders

/-!
# Links as substitutions

A link should be the base URL with all its placeholders filled at once (`Linker.substituted`), but
the passes that make it look for the path in what the remote has become part of, and for the anchor
in what the remote and the path have. So the links of a repository are these substitutions just if
no placeholder comes about there that the base URL does not hold (`links_substituted_iff`). A file
named by the placeholder of the anchor is one for which they are not
(`links_of_anchor_not_substituted`).
-/

namespace SearchConfig

open Template

namespace Linker

/-- The names that a base URL may hold placeholders of, in the order of their filling. -/
def names : List Text := ["url", "path", "anchor"]

/-- The text of the anchor with its line filled in: empty without a line, and none for a line number
that is too long to be written. -/
def anchorText? (anchor : Text) : Option Int → Option Text
  | none => some []
  | some n =>
    if Digits.isWritable n then some (substitute anchor [("line", Text.ofInt n)]) else none

/-- The base URL with all its placeholders filled at once. -/
def substituted (remote baseUrl path anchor : Text) : Text :=
  substitute baseUrl [("url", Remote.webAddress remote), ("path", relative path), ("anchor", anchor)]

/-- The pieces of a base URL in which the remote is filled in. -/
def withRemote (remote baseUrl : Text) : List Piece :=
  fill "url" (Remote.webAddress remote) (pieces names baseUrl)

/-- No placeholder comes about that the base URL does not hold: none of the path where the remote is
filled in, unless the path is that placeholder, and none of the anchor where the remote and the path
are. -/
def Undisturbed (remote baseUrl path : Text) : Prop :=
  (¬ Strays "path" (withRemote remote baseUrl) ∨ relative path = placeholder "path")
    ∧ ¬ Strays "anchor" (fill "path" (relative path) (withRemote remote baseUrl))

instance (remote baseUrl path : Text) : Decidable (Undisturbed remote baseUrl path) :=
  inferInstanceAs (Decidable (_ ∧ _))

theorem isPlain_of_mem_names : ∀ name ∈ names, IsPlain name := by decide

theorem isPlain_path : IsPlain "path" := isPlain_of_mem_names _ (by decide)

theorem isPlain_anchor : IsPlain "anchor" := isPlain_of_mem_names _ (by decide)

theorem holesArePlain_withRemote (remote baseUrl : Text) :
    HolesArePlain (withRemote remote baseUrl) :=
  (holesArePlain_pieces isPlain_of_mem_names baseUrl).fill _ _

theorem expand_baseUrl (remote baseUrl path anchor : Text) :
    expand baseUrl [("url", Remote.webAddress remote), ("path", relative path), ("anchor", anchor)]
      = ((written (withRemote remote baseUrl)).replaceAll (placeholder "path")
          (relative path)).replaceAll (placeholder "anchor") anchor := by
  rw [withRemote, ← replaceAll_template isPlain_of_mem_names (by decide)]
  rfl

theorem substituted_eq (remote baseUrl path anchor : Text) :
    substituted remote baseUrl path anchor
      = written (fill "anchor" anchor (fill "path" (relative path) (withRemote remote baseUrl))) := by
  rw [substituted, substitute, ← written_foldl_fill]
  rfl

theorem link?_eq (remote baseUrl anchor path : Text) (line : Option Int) :
    link? ⟨remote, baseUrl, anchor⟩ path line
      = (anchorText? anchor line).map fun text => expand baseUrl
          [("url", Remote.webAddress remote), ("path", relative path), ("anchor", text)] := by
  rcases line with _ | n
  · rfl
  · simp only [link?, anchorText?]
    split
    · rw [← expand_single (by decide)]
      rfl
    · rfl

theorem holesArePlain_withPath (remote baseUrl path : Text) :
    HolesArePlain (fill "path" (relative path) (withRemote remote baseUrl)) :=
  (holesArePlain_withRemote remote baseUrl).fill _ _

/-- If no placeholder comes about that the base URL does not hold, the passes fill its placeholders
at once. -/
theorem expand_eq_substituted {remote baseUrl path : Text} (h : Undisturbed remote baseUrl path)
    (anchor : Text) :
    expand baseUrl [("url", Remote.webAddress remote), ("path", relative path), ("anchor", anchor)]
      = substituted remote baseUrl path anchor := by
  rw [expand_baseUrl, substituted_eq]
  rw [(replaceAll_written_iff _ isPlain_path (holesArePlain_withRemote remote baseUrl)).2 h.1]
  exact (replaceAll_written_iff _ isPlain_anchor (holesArePlain_withPath remote baseUrl path)).2
    (.inl h.2)

/-- The anchor that is its own placeholder and the empty anchor tell whether a placeholder has come
about: the first one leaves the pass of the path to be seen, the second one the last pass. -/
theorem undisturbed_of_expand {remote baseUrl path : Text}
    (h : ∀ anchor, anchor = placeholder "anchor" ∨ anchor = [] → expand baseUrl
      [("url", Remote.webAddress remote), ("path", relative path), ("anchor", anchor)]
      = substituted remote baseUrl path anchor) :
    Undisturbed remote baseUrl path := by
  simp only [expand_baseUrl, substituted_eq] at h
  have hpath := h _ (.inl rfl)
  rw [replaceAll_placeholder_self, written_fill_placeholder] at hpath
  have hanchor := h _ (.inr rfl)
  rw [hpath, replaceAll_written_iff _ isPlain_anchor (holesArePlain_withPath remote baseUrl path)]
    at hanchor
  refine ⟨?_, hanchor.resolve_right (List.cons_ne_nil _ _).symm⟩
  exact (replaceAll_written_iff _ isPlain_path (holesArePlain_withRemote remote baseUrl)).1 hpath

end Linker

/-- For a remote, a base URL and a path, the links of a repository are what filling all placeholders
of the base URL at once makes, for every anchor and every line, exactly if no placeholder comes
about that the base URL does not hold. -/
theorem links_substituted_iff (r : Repository) (baseUrl path : Text) :
    (∀ (anchor : Text) (line : Option Int),
      (Linker.ofRepository (r.withPattern (some ⟨baseUrl, anchor⟩))).map (·.link? path line)
        = .ok ((Linker.anchorText? anchor line).map (Linker.substituted r.url baseUrl path)))
      ↔ Linker.Undisturbed r.url baseUrl path := by
  simp only [Linker.ofRepository, RepositoryOf.withPattern, Except.map, Linker.link?_eq,
    Except.ok.injEq]
  refine ⟨fun h => Linker.undisturbed_of_expand ?_, fun h anchor line => ?_⟩
  · rintro text (rfl | rfl)
    · have hline : Linker.anchorText? (placeholder "anchor") (some 0)
          = some (placeholder "anchor") := by decide
      have hlink := h (placeholder "anchor") (some 0)
      rw [hline] at hlink
      exact Option.some.inj hlink
    · exact Option.some.inj (h [] none)
  · exact congrArg (Option.map · _) (funext fun text => Linker.expand_eq_substituted h text)

/-- A file named by the placeholder of the anchor gets a link with the anchor for its name. -/
theorem links_of_anchor_not_substituted :
    Linker.link? ⟨"https://h/r", "\x7burl\x7d/\x7bpath\x7d\x7banchor\x7d", "#L\x7bline\x7d"⟩
        "\x7banchor\x7d" (some 3)
      = some "https://h/r/#L3#L3"
    ∧ (Linker.anchorText? "#L\x7bline\x7d" (some 3)).map
        (Linker.substituted "https://h/r" "\x7burl\x7d/\x7bpath\x7d\x7banchor\x7d"
          "\x7banchor\x7d")
      = some "https://h/r/\x7banchor\x7d#L3" := by
  decide

end SearchConfig
