import Mathlib.Algebra.Order.Ring.Int
import SearchConfig.Proofs.Links
import SearchConfig.Proofs.LoadLog
import SearchConfig.Proofs.RemoteSpellings

/-!
# Links to lines

The links to different lines of a file are different if the base URL has a place for the anchor and
the anchor one for the line, whatever else the templates, the remote and the path hold
(`lines_linked_apart`). A placeholder outlives the passes of other names, so the last pass comes to
that of the anchor. And a pass that comes to a placeholder loses nothing: as many times as it puts a
value in, the value makes the text longer by its length, so the values of two equal texts are as
long as each other and stand in the same place first (`replaceAll_placeholder_injective`).
-/

namespace SearchConfig

namespace Digits

theorem natural_injective : Function.Injective natural :=
  Function.LeftInverse.injective value_natural

theorem integer_injective : Function.Injective integer := by
  -- A sign is no digit, so it tells the negative numbers from the others.
  have hsign : ∀ m n : Nat, natural m ≠ '-' :: natural n := by
    intro m n h
    have hdigit := isDigit_of_mem_natural (h ▸ List.mem_cons_self)
    exact absurd hdigit (by decide)
  intro m n h
  rcases m with m | m <;> rcases n with n | n
  · exact congrArg Int.ofNat (natural_injective h)
  · exact absurd h (hsign _ _)
  · exact absurd h.symm (hsign _ _)
  · exact congrArg Int.negSucc (Nat.succ_inj.1 (natural_injective (List.cons.inj h).2))

theorem count_ten_pow (k : Nat) : count (10 ^ k) = k + 1 := by
  induction k with
  | zero => exact count_of_lt (by decide)
  | succ k ih =>
    have hpow : 10 ≤ 10 ^ (k + 1) := Nat.le_self_pow (Nat.succ_ne_zero k) 10
    rw [count, natural_of_le hpow, List.length_append, List.length_singleton, Nat.pow_succ,
      Nat.mul_div_cancel _ (by decide), ← count, ih]

theorem not_isWritable_ten_pow {k : Nat} (h : limit ≤ k) : ¬ isWritable (10 ^ k) = true := by
  have hcount : count ((10 : Int) ^ k).natAbs = k + 1 := by
    rw [Int.natAbs_pow]
    exact count_ten_pow k
  rw [isWritable, decide_eq_true_eq, hcount]
  exact Nat.not_le_of_lt (Nat.lt_succ_of_le h)

end Digits

namespace Text

theorem ofInt_injective : Function.Injective ofInt := fun _ _ h =>
  Digits.integer_injective (List.map_injective_iff.2 (fun _ _ => CodePoint.scalar.inj) h)

theorem ofInt_ne_nil (n : Int) : ofInt n ≠ [] := by
  rcases n with n | n
  · exact fun h => Digits.natural_ne_nil n (List.map_eq_nil_iff.1 h)
  · exact List.cons_ne_nil _ _

end Text

namespace Template

section Holes

variable {name : Text} {ps : List Piece}

theorem fill_append (name value : Text) (ps qs : List Piece) :
    fill name value (ps ++ qs) = fill name value ps ++ fill name value qs := List.flatMap_append

theorem fill_of_not_mem (h : .hole name ∉ ps) (value : Text) : fill name value ps = ps := by
  induction ps with
  | nil => rfl
  | cons p ps ih =>
    rw [List.mem_cons, not_or] at h
    rcases p with c | other
    · rw [fill_point_cons, ih h.2]
    · have hne : other ≠ name := fun heq => h.1 (congrArg Piece.hole heq.symm)
      rw [fill_hole_cons, if_neg hne, ih h.2, List.singleton_append]

theorem hole_mem_fill_of_ne {other : Text} (hne : name ≠ other) (h : .hole name ∈ ps)
    (value : Text) : .hole name ∈ fill other value ps := by
  refine List.mem_flatMap.2 ⟨_, h, ?_⟩
  rw [Piece.fill, if_neg hne]
  exact List.mem_singleton_self _

theorem infix_written_of_hole_mem (h : .hole name ∈ ps) : placeholder name <:+: written ps := by
  obtain ⟨before, after, rfl⟩ := List.append_of_mem h
  refine ⟨written before, written after, ?_⟩
  rw [written_append, written_hole_cons, List.append_assoc]

theorem infix_written_fill (h : .hole name ∈ ps) (value : Text) :
    value <:+: written (fill name value ps) := by
  obtain ⟨before, after, rfl⟩ := List.append_of_mem h
  refine ⟨written (fill name value before), written (fill name value after), ?_⟩
  rw [fill_append, written_append, written_fill_hole_cons, if_pos rfl, List.append_assoc]

/-- Each hole that is filled makes the text longer by the length of its value. -/
theorem length_written_fill (name value : Text) (ps : List Piece) :
    (written (fill name value ps)).length
      = (written (fill name [] ps)).length + ps.count (.hole name) * value.length := by
  induction ps with
  | nil => simp [fill]
  | cons p ps ih =>
    rcases p with c | other
    · rw [fill_point_cons, fill_point_cons, written_point_cons, written_point_cons,
        List.length_cons, List.length_cons, List.count_cons_of_ne (by simp), ih]
      omega
    · rw [written_fill_hole_cons, written_fill_hole_cons, List.length_append, List.length_append,
        List.count_cons, ih]
      by_cases h : other = name
      · simp only [h, if_pos, beq_self_eq_true, List.length_nil, Nat.add_mul, Nat.one_mul]
        omega
      · have hne : ¬ (Piece.hole other == Piece.hole name) = true := by simpa using h
        simp only [if_neg h, if_neg hne, Nat.add_zero]
        omega

/-- The value that a hole was filled with can be told from the text. -/
theorem written_fill_injective (h : .hole name ∈ ps) :
    Function.Injective fun value => written (fill name value ps) := by
  intro value value' heq
  have hlength : value.length = value'.length := by
    have htotal := congrArg List.length heq
    simp only [length_written_fill name value, length_written_fill name value'] at htotal
    exact Nat.eq_of_mul_eq_mul_left (List.count_pos_iff.2 h) (Nat.add_left_cancel htotal)
  obtain ⟨before, after, rfl, hbefore⟩ := List.eq_append_cons_of_mem h
  simp only [fill_append, fill_of_not_mem hbefore, written_append, written_fill_hole_cons,
    if_pos] at heq
  exact (List.append_inj (List.append_cancel_left heq) hlength).1

end Holes

section Occurrences

variable {name : Text} {t : Text}

/-- A placeholder in a template is one of its holes. -/
theorem hole_mem_pieces {names : List Text} (hnames : ∀ other ∈ names, IsPlain other)
    (hname : name ∈ names) (h : placeholder name <:+: t) : .hole name ∈ pieces names t := by
  by_contra hmem
  have hpass := replaceAll_template hnames hname t []
  rw [fill_of_not_mem hmem, written_pieces] at hpass
  obtain ⟨k, hk, hpos⟩ := length_replaceAll_placeholder name [] t
  rw [hpass, List.length_nil, Nat.mul_zero, Nat.add_zero, Nat.add_eq_left] at hk
  have hlength : 0 < (placeholder name).length := List.length_pos_iff.2 (List.cons_ne_nil _ _)
  exact absurd hk (Nat.mul_pos (hpos h) hlength).ne'

/-- A placeholder outlives the pass of another name. -/
theorem infix_replaceAll_of_ne {other : Text} (hname : IsPlain name) (hother : IsPlain other)
    (hne : name ≠ other) (h : placeholder name <:+: t) (value : Text) :
    placeholder name <:+: t.replaceAll (placeholder other) value := by
  have hplain : ∀ n ∈ [other, name], IsPlain n := by simp [hname, hother]
  rw [replaceAll_template hplain (by simp)]
  exact infix_written_of_hole_mem
    (hole_mem_fill_of_ne hne (hole_mem_pieces hplain (by simp) h) value)

/-- A pass that comes to a placeholder puts its value in. -/
theorem infix_replaceAll (hname : IsPlain name) (h : placeholder name <:+: t) (value : Text) :
    value <:+: t.replaceAll (placeholder name) value := by
  have hplain := List.forall_mem_singleton.2 hname
  rw [replaceAll_template hplain (by simp)]
  exact infix_written_fill (hole_mem_pieces hplain (by simp) h) value

/-- The value that a pass has put in can be told from the text, if it came to a placeholder. -/
theorem replaceAll_placeholder_injective (hname : IsPlain name) (h : placeholder name <:+: t) :
    Function.Injective (t.replaceAll (placeholder name)) := by
  have hplain := List.forall_mem_singleton.2 hname
  have hpass : t.replaceAll (placeholder name)
      = fun value => written (fill name value (pieces [name] t)) :=
    funext (replaceAll_template hplain (by simp) t)
  rw [hpass]
  exact written_fill_injective (hole_mem_pieces hplain (by simp) h)

end Occurrences

end Template

open Template

namespace Linker

theorem anchorOf_injective {pattern : UrlPattern} (h : placeholder "line" <:+: pattern.anchor) :
    ∀ {line line' : Option Int}, anchorOf pattern (line.map Text.ofInt)
      = anchorOf pattern (line'.map Text.ofInt) → line = line' := by
  have hplain : IsPlain "line" := by decide
  -- Without a line the anchor is empty, and with one it is not.
  have hempty : ∀ n : Int, pattern.anchor.replaceAll (placeholder "line") (Text.ofInt n) ≠ [] := by
    intro n heq
    have hinfix := infix_replaceAll hplain h (Text.ofInt n)
    rw [heq, List.infix_nil] at hinfix
    exact Text.ofInt_ne_nil n hinfix
  rintro (_ | n) (_ | n') heq
  · rfl
  · exact absurd heq.symm (hempty n')
  · exact absurd heq (hempty n)
  · exact congrArg some
      (Text.ofInt_injective (replaceAll_placeholder_injective hplain h heq))

theorem anchorOf_eq_of_linkAt_eq {linker : Linker}
    (h : placeholder "anchor" <:+: linker.pattern.baseUrl) {path : Text} {line line' : Option Text}
    (heq : linker.linkAt path line = linker.linkAt path line') :
    anchorOf linker.pattern line = anchorOf linker.pattern line' := by
  have hurl : IsPlain "url" := isPlain_of_mem_names _ (by decide)
  have hlast := infix_replaceAll_of_ne isPlain_anchor isPlain_path (by decide)
    (infix_replaceAll_of_ne isPlain_anchor hurl (by decide) h (Remote.webAddress linker.remote))
    (relative path)
  exact replaceAll_placeholder_injective isPlain_anchor hlast heq

/-- Is there no line, or one whose number is not too long to be written? -/
def IsLine (line : Option Int) : Prop := ∀ n ∈ line, Digits.isWritable n = true

theorem link?_of_isLine (linker : Linker) (path : Text) {line : Option Int} (h : IsLine line) :
    linker.link? path line = some (linker.linkAt path (line.map Text.ofInt)) := by
  rcases line with _ | n
  · rfl
  · exact if_pos (h n rfl)

theorem link?_of_long (linker : Linker) (path : Text) {n : Int} (h : ¬ Digits.isWritable n = true) :
    linker.link? path (some n) = none := if_neg h

/-- Have different lines of a file different links? -/
def TellsLines (linker : Linker) : Prop := ∀ (path : Text) (line line' : Option Int),
  IsLine line → IsLine line' → line ≠ line' → ∃ link link',
    linker.link? path line = some link ∧ linker.link? path line' = some link' ∧ link ≠ link'

theorem tellsLines {linker : Linker} (hbase : placeholder "anchor" <:+: linker.pattern.baseUrl)
    (hanchor : placeholder "line" <:+: linker.pattern.anchor) : linker.TellsLines := by
  intro path line line' hline hline' hne
  refine ⟨_, _, linker.link?_of_isLine path hline, linker.link?_of_isLine path hline', ?_⟩
  exact fun heq => hne (anchorOf_injective hanchor (anchorOf_eq_of_linkAt_eq hbase heq))

end Linker

theorem Defaults.placeholders_patternFor (url : Text) :
    placeholder "anchor" <:+: (patternFor url).baseUrl
      ∧ placeholder "line" <:+: (patternFor url).anchor := by
  unfold patternFor
  split
  · exact ⟨Text.occursIn_iff.1 (by decide), Text.occursIn_iff.1 (by decide)⟩
  · exact ⟨Text.occursIn_iff.1 (by decide), Text.occursIn_iff.1 (by decide)⟩

/-- The links of a repository tell the lines of a file apart if its base URL holds the placeholder
of the anchor and its anchor that of the line. In particular they do for a repository that is loaded
without a pattern. -/
theorem lines_linked_apart :
    (∀ (r : Repository) (p : UrlPattern), r.urlPattern = some p →
      placeholder "anchor" <:+: p.baseUrl → placeholder "line" <:+: p.anchor →
      ∃ linker, Linker.ofRepository r = .ok linker ∧ linker.TellsLines)
    ∧ ∀ (files : Files) (name : Text) (d c : Config), Config.ofFile files (.ofText name) = .ok d →
      Config.load files name = .ok c → ∀ (k : Text) (r : Repository),
      Entries.get? k d.repos = some r → r.urlPattern = none →
      ∃ r' linker, Entries.get? k c.repos = some r' ∧ Linker.ofRepository r' = .ok linker
        ∧ linker.TellsLines := by
  refine ⟨fun r p hp hbase hanchor => ?_, fun files name d c hfile hload k r hr hp => ?_⟩
  · refine ⟨⟨r.url, p⟩, by rw [Linker.ofRepository, hp], ?_⟩
    exact Linker.tellsLines hbase hanchor
  · obtain ⟨d', place, hfile', -, rfl⟩ := Config.exists_of_load hload
    obtain rfl := Except.ok.inj (hfile.symm.trans hfile')
    have hpattern : r.normalized.urlPattern = some (Defaults.patternFor r.url) := by
      rw [Repository.normalized, RepositoryOf.withPattern, hp]
    obtain ⟨hbase, hanchor⟩ := Defaults.placeholders_patternFor r.url
    refine ⟨r.normalized, ⟨r.url, Defaults.patternFor r.url⟩, ?_, ?_,
      Linker.tellsLines hbase hanchor⟩
    · exact (Entries.get?_mapValues Repository.normalized k d.repos).trans (by rw [hr]; rfl)
    · rw [Linker.ofRepository, hpattern]
      rfl

/-- A base URL with two anchors, for a file that is named like one, and a file whose repository has
nothing but its address. -/
theorem lines_linked_apart_tangled :
    let pattern : UrlPattern :=
      ⟨"\x7banchor\x7d\x7bpath\x7d\x7banchor\x7d", "\x7bline\x7d-\x7bline\x7d"⟩
    let files := Files.single "c" (Json.withFields [("url".toList, .string "u".toList)]).toBytes
    (∃ linker link link',
      Linker.ofRepository ⟨"u", 0, [], none, some pattern, false, none, none⟩ = .ok linker
      ∧ linker.link? "\x7banchor\x7d" (some (-1)) = some link
      ∧ linker.link? "\x7banchor\x7d" none = some link' ∧ link ≠ link')
    ∧ ∃ c r linker link link', Config.load files "c" = .ok c
      ∧ Entries.get? ("r" : Text) c.repos = some r ∧ Linker.ofRepository r = .ok linker
      ∧ linker.link? "p" (some 1) = some link ∧ linker.link? "p" (some 11) = some link'
      ∧ link ≠ link' := by
  intro pattern files
  have hline : ∀ n, Digits.isWritable n = true → Linker.IsLine (some n) :=
    fun n hn m hm => Option.some.inj hm ▸ hn
  have hread : Json.ofBytes? (Json.withFields [("url".toList, .string "u".toList)]).toBytes
      = some (Json.withFields [("url".toList, .string "u".toList)]) :=
    Json.ofBytes?_toBytes (by simp [Json.withFields, Json.Each, Json.EachEntry, Json.ReadsBack])
      (by decide)
  have hfile : Config.ofFile files (.ofText "c")
      = .ok ⟨"/d", [], [("r", ⟨"u", 0, [], none, none, false, none, none⟩)], 0, []⟩ :=
    (Config.ofFile_of_read rfl hread).2 rfl
  have hload := Config.load_of_ok hfile
  obtain ⟨linker, hlinker, htells⟩ := lines_linked_apart.1
    ⟨"u", 0, [], none, some pattern, false, none, none⟩ pattern rfl
    (Text.occursIn_iff.1 (by decide)) (Text.occursIn_iff.1 (by decide))
  obtain ⟨r, linker', hr, hlinker', htells'⟩ :=
    lines_linked_apart.2 files "c" _ _ hfile hload "r" _ rfl rfl
  obtain ⟨link, link', hlinks⟩ := htells "\x7banchor\x7d" (some (-1)) none (hline _ (by decide))
    (fun _ h => by cases h) (by decide)
  obtain ⟨link₁, link₁₁, hlinks'⟩ := htells' "p" (some 1) (some 11) (hline _ (by decide))
    (hline _ (by decide)) (by decide)
  exact ⟨⟨linker, link, link', hlinker, hlinks⟩, _, r, linker', link₁, link₁₁, hload, hr,
    hlinker', hlinks'⟩

/-- A line whose number is too long to be written has no link. -/
theorem long_line_unlinked :
    placeholder "anchor" <:+: Defaults.pattern.baseUrl
    ∧ placeholder "line" <:+: Defaults.pattern.anchor ∧ (some (10 ^ 4300) : Option Int) ≠ none
    ∧ Linker.link? ⟨"u", Defaults.pattern⟩ "p" (some (10 ^ 4300)) = none
    ∧ Linker.link? ⟨"u", Defaults.pattern⟩ "p" none = some "u/blob/master/p" := by
  refine ⟨Text.occursIn_iff.1 (by decide), Text.occursIn_iff.1 (by decide),
    Option.some_ne_none _, ?_, by decide⟩
  exact Linker.link?_of_long _ _ (Digits.not_isWritable_ten_pow (Nat.le_refl _))

end SearchConfig
