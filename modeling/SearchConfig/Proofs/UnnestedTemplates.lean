import Mathlib.Data.List.Find
import SearchConfig.Link.Unchecked
import SearchConfig.Proofs.OrderedEntries
import SearchConfig.Proofs.Placeholders

/-!
# Templates without nested braces

Where no opening brace follows another one before a closing one, what stands behind an opening brace
up to the next closing one is the template's own text: a hole would open another brace there. So a
value without opening braces can neither begin a placeholder nor complete one, and no pass ever
finds a placeholder that was not a hole from the start (`expand_eq_substitute`). Filling all holes
at once does not ask in which order the names are given, so neither does filling one after the other
(`expandNamed_unordered`).
-/

namespace SearchConfig

namespace Text

/-- Stands a closing brace between each two opening ones? -/
def IsUnnested (t : Text) : Prop := ∀ between : Text,
  .scalar '\x7b' :: (between ++ [.scalar '\x7b']) <:+: t → .scalar '\x7d' ∈ between

/-- Stands a closing brace between each two opening ones, if one that stands before the text is open
or not? -/
def unnestedFrom (isOpen : Bool) : Text → Bool
  | [] => true
  | c :: t =>
    if c = .scalar '\x7b' then !isOpen && unnestedFrom true t
    else if c = .scalar '\x7d' then unnestedFrom false t
    else unnestedFrom isOpen t

section Unnested

variable {s t : Text}

theorem isUnnested_cons_iff {c : CodePoint} : IsUnnested (c :: t) ↔
    (c = .scalar '\x7b' →
      ∀ between, between ++ [.scalar '\x7b'] <+: t → .scalar '\x7d' ∈ between) ∧ IsUnnested t := by
  simp only [IsUnnested, List.infix_cons_iff, List.cons_prefix_cons, or_imp, forall_and]
  refine and_congr_left' ⟨fun h hc between hpre => h between ⟨hc.symm, hpre⟩, ?_⟩
  exact fun h between hpre => h hpre.1.symm between hpre.2

theorem unnestedFrom_true_iff : ∀ {t : Text}, unnestedFrom true t = true ↔
    (∀ between, between ++ [.scalar '\x7b'] <+: t → .scalar '\x7d' ∈ between)
      ∧ unnestedFrom false t = true
  | [] => by simp [unnestedFrom]
  | c :: t => by
    rw [unnestedFrom, unnestedFrom]
    split_ifs with hopen hclose
    · refine iff_of_false Bool.false_ne_true fun h => ?_
      have hnil := h.1 [] (by rw [hopen]; exact List.prefix_append [_] t)
      exact List.not_mem_nil hnil
    · refine (and_iff_right fun between hpre => ?_).symm
      rcases between with _ | ⟨d, between⟩
      · exact absurd (List.cons_prefix_cons.1 hpre).1.symm hopen
      · rw [(List.cons_prefix_cons.1 hpre).1, hclose]
        exact List.mem_cons_self
    · rw [unnestedFrom_true_iff]
      refine and_congr_left' ⟨fun h between hpre => ?_, fun h between hpre => ?_⟩
      · rcases between with _ | ⟨d, between⟩
        · exact absurd (List.cons_prefix_cons.1 hpre).1.symm hopen
        · exact List.mem_cons_of_mem d (h between (List.cons_prefix_cons.1 hpre).2)
      · have hmem := h (c :: between) (List.cons_prefix_cons.2 ⟨rfl, hpre⟩)
        exact (List.mem_cons.1 hmem).resolve_left fun heq => hclose heq.symm

theorem isUnnested_iff : ∀ {t : Text}, t.IsUnnested ↔ unnestedFrom false t = true
  | [] => by simp [IsUnnested, unnestedFrom]
  | c :: t => by
    rw [isUnnested_cons_iff, isUnnested_iff, unnestedFrom]
    split_ifs with hopen hclose
    · rw [Bool.not_false, Bool.true_and, unnestedFrom_true_iff]
      exact and_congr_left' ⟨fun h => h hopen, fun h _ => h⟩
    · exact and_iff_right fun h => absurd h hopen
    · exact and_iff_right fun h => absurd h hopen

instance (t : Text) : Decidable t.IsUnnested := decidable_of_iff _ isUnnested_iff.symm

/-- A text without opening braces only closes. -/
theorem unnestedFrom_append (hs : .scalar '\x7b' ∉ s) (isOpen : Bool) :
    unnestedFrom isOpen (s ++ t)
      = unnestedFrom (isOpen && decide (CodePoint.scalar '\x7d' ∉ s)) t := by
  induction s generalizing isOpen with
  | nil => simp
  | cons c s ih =>
    rw [List.mem_cons, not_or] at hs
    rw [List.cons_append, unnestedFrom, if_neg fun h => hs.1 h.symm]
    split_ifs with hclose
    · rw [ih hs.2, hclose]
      simp
    · rw [ih hs.2]
      simp [Ne.symm hclose]

end Unnested

end Text

namespace Template

open Piece Text

section Fill

variable {name value : Text} {ps : List Piece}

theorem unnestedFrom_placeholder (hname : IsPlain name) (isOpen : Bool) (t : Text) :
    unnestedFrom isOpen (placeholder name ++ t) = (!isOpen && unnestedFrom false t) := by
  have hclose : ∀ isOpen, unnestedFrom isOpen (.scalar '\x7d' :: t) = unnestedFrom false t := by
    intro isOpen
    rw [unnestedFrom, if_neg (by decide), if_pos rfl]
  rw [placeholder_eq, List.cons_append, unnestedFrom, if_pos rfl, List.append_assoc,
    unnestedFrom_append hname.1, List.singleton_append, hclose]

/-- A pass nests no braces. -/
theorem unnestedFrom_fill (hvalue : .scalar '\x7b' ∉ value) :
    ∀ {ps : List Piece} {isOpen : Bool}, HolesArePlain ps →
      unnestedFrom isOpen (written ps) = true →
      unnestedFrom isOpen (written (fill name value ps)) = true
  | [], _, _, h => h
  | point c :: ps, isOpen, hps, h => by
    rw [fill_point_cons, written_point_cons, unnestedFrom] at *
    split_ifs at h ⊢ with hopen hclose
    · rw [Bool.and_eq_true] at h ⊢
      exact ⟨h.1, unnestedFrom_fill hvalue hps.of_cons h.2⟩
    · exact unnestedFrom_fill hvalue hps.of_cons h
    · exact unnestedFrom_fill hvalue hps.of_cons h
  | hole other :: ps, isOpen, hps, h => by
    have hother := hps other List.mem_cons_self
    rw [written_hole_cons, unnestedFrom_placeholder hother, Bool.and_eq_true] at h
    have ih := unnestedFrom_fill hvalue hps.of_cons h.2
    have hclosed : isOpen = false := by simpa using h.1
    rw [written_fill_hole_cons]
    split
    · rw [unnestedFrom_append hvalue, hclosed, Bool.false_and]
      exact ih
    · rw [unnestedFrom_placeholder hother, h.1, Bool.true_and]
      exact ih

theorem infix_of_append {α : Type} {b : α} {l z : List α} :
    ∀ {y : List α}, b ∉ y → b :: l <:+: y ++ z → b :: l <:+: z
  | [], _, h => h
  | c :: y, hy, h => by
    rw [List.mem_cons, not_or] at hy
    rw [List.cons_append, List.infix_cons_iff] at h
    exact infix_of_append hy.2 (h.resolve_left fun hpre => hy.1 (List.cons_prefix_cons.1 hpre).1)

/-- Behind an open brace, up to the next closing one, a pass leaves everything as it is. -/
theorem closing_of_fill {t : Text} (ht : IsPlain t) :
    ∀ {ps : List Piece} {s : Text}, HolesArePlain ps → unnestedFrom true (written ps) = true →
      s <:+ t → (s ++ [CodePoint.scalar '\x7d']).map point <+: fill name value ps →
      (s ++ [CodePoint.scalar '\x7d']).map point <+: ps
  | [], _, _, _, _, h => h
  | hole other :: ps, _, hps, hclosed, _, _ => by
    rw [written_hole_cons, unnestedFrom_placeholder (hps other List.mem_cons_self)] at hclosed
    cases hclosed
  | point c :: ps, [], _, _, _, h => by
    rw [List.nil_append, List.map_singleton, fill_point_cons, List.cons_prefix_cons] at h
    rw [List.nil_append, List.map_singleton, List.cons_prefix_cons]
    exact ⟨h.1, List.nil_prefix⟩
  | point c :: ps, d :: s, hps, hclosed, hs, h => by
    rw [List.cons_append, List.map_cons, fill_point_cons, List.cons_prefix_cons] at h
    rw [List.cons_append, List.map_cons, List.cons_prefix_cons]
    refine ⟨h.1, closing_of_fill ht hps.of_cons ?_ ((List.suffix_cons d s).trans hs) h.2⟩
    obtain rfl := Piece.point.inj h.1
    have hmem : d ∈ t := hs.subset List.mem_cons_self
    have hopen : d ≠ .scalar '\x7b' := fun heq => ht.1 (heq ▸ hmem)
    have hclose : d ≠ .scalar '\x7d' := fun heq => ht.2 (heq ▸ hmem)
    rwa [written_point_cons, unnestedFrom, if_neg hopen, if_neg hclose] at hclosed

/-- A pass lets no placeholder come about. -/
theorem not_strays_fill {other : Text} (hother : IsPlain other) (hvalue : .scalar '\x7b' ∉ value) :
    ∀ {ps : List Piece} {isOpen : Bool}, HolesArePlain ps →
      unnestedFrom isOpen (written ps) = true → ¬ Strays other ps →
      ¬ Strays other (fill name value ps)
  | [], _, _, _, hs => hs
  | point c :: ps, isOpen, hps, h, hs => by
    rw [Strays, List.infix_cons_iff, not_or] at hs
    rw [fill_point_cons, Strays, List.infix_cons_iff, not_or]
    rw [written_point_cons, unnestedFrom] at h
    refine ⟨fun hpre => hs.1 ?_, ?_⟩
    · rw [placeholder_eq, List.map_cons, List.cons_prefix_cons] at hpre ⊢
      refine ⟨hpre.1, ?_⟩
      rw [if_pos (Piece.point.inj hpre.1).symm, Bool.and_eq_true] at h
      exact closing_of_fill hother hps.of_cons h.2 (List.suffix_refl _) hpre.2
    · split_ifs at h
      · exact not_strays_fill hother hvalue hps.of_cons (Bool.and_eq_true_iff.1 h).2 hs.2
      · exact not_strays_fill hother hvalue hps.of_cons h hs.2
      · exact not_strays_fill hother hvalue hps.of_cons h hs.2
  | hole n :: ps, isOpen, hps, h, hs => by
    have hrest : ¬ Strays other ps := fun hmem => hs (List.infix_cons hmem)
    rw [written_hole_cons, unnestedFrom_placeholder (hps n List.mem_cons_self),
      Bool.and_eq_true] at h
    have ih := not_strays_fill hother hvalue hps.of_cons h.2 hrest
    rw [fill_hole_cons]
    split
    · -- The value has no opening brace, with which a placeholder begins.
      rw [Strays, placeholder_eq, List.map_cons] at ih ⊢
      refine fun hmem => ih (infix_of_append (fun hopen => hvalue ?_) hmem)
      obtain ⟨c, hc, heq⟩ := List.mem_map.1 hopen
      exact Piece.point.inj heq ▸ hc
    · rw [List.singleton_append, Strays, List.infix_cons_iff, not_or]
      exact ⟨fun hpre => by simp [placeholder_eq] at hpre, ih⟩

end Fill

section Values

variable {values : List (Text × Text)}

/-- Values without opening braces, under names without braces. -/
def AreFlat (values : List (Text × Text)) : Prop :=
  ∀ entry ∈ values, IsPlain entry.1 ∧ .scalar '\x7b' ∉ entry.2

instance (values : List (Text × Text)) : Decidable (AreFlat values) :=
  inferInstanceAs (Decidable (∀ entry ∈ values, _))

/-- One pass after the other fills the holes of its name and nothing else. -/
theorem expand_written (hvalues : AreFlat values) : ∀ {ps : List Piece}, HolesArePlain ps →
    unnestedFrom false (written ps) = true → (∀ entry ∈ values, ¬ Strays entry.1 ps) →
    expand (written ps) values
      = written (values.foldl (fun ps (name, value) => fill name value ps) ps) := by
  induction values with
  | nil => exact fun _ _ _ => rfl
  | cons entry values ih =>
    intro ps hps hnested hstrays
    obtain ⟨name, value⟩ := entry
    obtain ⟨⟨hname, hvalue⟩, hvalues⟩ := List.forall_mem_cons.1 hvalues
    obtain ⟨hstray, hstrays⟩ := List.forall_mem_cons.1 hstrays
    have hpass : (written ps).replaceAll (placeholder name) value = written (fill name value ps) :=
      (replaceAll_written_iff value hname hps).2 (.inl hstray)
    refine (congrArg (expand · values) hpass).trans ?_
    exact ih hvalues (hps.fill name value) (unnestedFrom_fill hvalue hps hnested)
      fun other hother => not_strays_fill (hvalues other hother).1 hvalue hps hnested
        (hstrays other hother)

/-- In a template without nested braces all placeholders are filled at once. -/
theorem expand_eq_substitute {template : Text} (htemplate : template.IsUnnested)
    (hvalues : AreFlat values) : expand template values = substitute template values := by
  have hnames : ∀ name ∈ values.map Prod.fst, IsPlain name :=
    List.forall_mem_map.2 fun entry hentry => (hvalues entry hentry).1
  have hpasses := expand_written hvalues (holesArePlain_pieces hnames template)
    (by rw [written_pieces]; exact isUnnested_iff.1 htemplate)
    fun entry hentry => not_strays_pieces (List.mem_map_of_mem hentry) template
  rw [written_pieces, written_foldl_fill] at hpasses
  exact hpasses

/-- No two placeholders begin at one place. -/
theorem eq_of_placeholders_prefix {name name' t : Text} (hname : IsPlain name)
    (hname' : IsPlain name') (h : placeholder name <+: t) (h' : placeholder name' <+: t) :
    name = name' := by
  by_contra hne
  obtain ⟨rest, rfl⟩ := h'
  exact not_placeholder_begins hname hname' (Ne.symm hne) rest h

theorem piecesFrom_of_perm {names names' : List Text} (hnames : ∀ name ∈ names, IsPlain name)
    (hperm : names.Perm names') :
    ∀ (t : Text) (skip : Nat), piecesFrom names skip t = piecesFrom names' skip t
  | [], _ => rfl
  | c :: t, skip + 1 => piecesFrom_of_perm hnames hperm t skip
  | c :: t, 0 => by
    have hfind : names.find? (fun name => (placeholder name).isPrefixOf (c :: t))
        = names'.find? fun name => (placeholder name).isPrefixOf (c :: t) := by
      refine List.find?_eq_find?_of_perm hperm fun name hname name' hname' => ?_
      exact eq_of_placeholders_prefix (hnames name hname.1) (hnames name' hname'.1)
        (List.isPrefixOf_iff_prefix.1 hname.2) (List.isPrefixOf_iff_prefix.1 hname'.2)
    simp only [piecesFrom, hfind, piecesFrom_of_perm hnames hperm t]

/-- Filling all placeholders at once does not ask for the order of the names. -/
theorem substitute_of_perm {values' : List (Text × Text)} (hvalues : AreFlat values)
    (hdistinct : (Entries.keys values).Nodup) (hperm : values.Perm values') (template : Text) :
    substitute template values = substitute template values' := by
  have hpieces : pieces (values.map Prod.fst) template = pieces (values'.map Prod.fst) template :=
    piecesFrom_of_perm (List.forall_mem_map.2 fun entry hentry => (hvalues entry hentry).1)
      (hperm.map Prod.fst) template 0
  have hfilled : filled values = filled values' := by
    funext p
    rcases p with c | name
    · rfl
    · rw [filled, filled, Entries.get?_of_perm hdistinct hperm]
  rw [substitute, substitute, hpieces, hfilled]

end Values

end Template

namespace Value

open Template

theorem mapM_filling (values : List (Text × Text)) :
    (Entries.mapValues text values).mapM filling = .ok values := by
  induction values with
  | nil => rfl
  | cons entry values ih =>
    rw [Entries.mapValues, List.map_cons, List.mapM_cons, ← Entries.mapValues, ih]
    rfl

theorem expandNamed_text (template : Text) {values : List (Text × Text)}
    (h : templateName ∉ Entries.keys values) :
    expandNamed (.text template) (Entries.mapValues text values)
      = .ok (.text (Template.expand template values)) := by
  have hnamed : ¬ (Entries.mapValues text values).any (·.1 = templateName) = true := by
    intro hany
    obtain ⟨entry, hentry, heq⟩ := List.any_eq_true.1 hany
    rw [← Entries.keys_mapValues text] at h
    exact h (List.mem_map.2 ⟨entry, hentry, of_decide_eq_true heq⟩)
  rw [expandNamed, if_neg hnamed]
  split
  · rename_i hempty
    obtain rfl := List.map_eq_nil_iff.1 (List.isEmpty_iff.1 hempty)
    rfl
  · rw [expand, mapM_filling]
    rfl

end Value

open Template Value

/-- In a template without nested braces, values without opening braces under different names without
braces are filled in alike in any order: each placeholder of a name becomes its value and everything
else stays. Only the name of the template itself cannot be given to a value. -/
theorem expandNamed_unordered (template : Text) (values : List (Text × Text))
    (htemplate : template.IsUnnested) (hdistinct : (Entries.keys values).Nodup)
    (hvalues : AreFlat values) (hnames : templateName ∉ Entries.keys values) :
    ∀ values' : List (Text × Text), values'.Perm values →
      expandNamed (.text template) (Entries.mapValues .text values')
        = .ok (.text (substitute template values)) := by
  intro values' hperm
  have hvalues' : AreFlat values' := fun entry hentry => hvalues entry (hperm.mem_iff.1 hentry)
  have hnames' : templateName ∉ Entries.keys values' := fun hmem =>
    hnames ((hperm.map Prod.fst).mem_iff.1 hmem)
  rw [expandNamed_text template hnames', expand_eq_substitute htemplate hvalues',
    substitute_of_perm hvalues hdistinct hperm.symm]

/-- An empty value between braces closes up no placeholder, and a closing brace in a value none
either. -/
theorem expandNamed_unordered_seams :
    expandNamed (.text "\x7ba\x7d\x7bx\x7db\x7d\x7bb")
        [("b", .text "?"), ("x", .text "\x7d"), ("a", .text [])]
      = .ok (.text "\x7db\x7d\x7bb") :=
  expandNamed_unordered "\x7ba\x7d\x7bx\x7db\x7d\x7bb" [("a", []), ("x", "\x7d"), ("b", "?")]
    (by decide) (by decide) (by decide) (by decide) [("b", "?"), ("x", "\x7d"), ("a", [])]
    (by decide)

/-- A value under the name of the template is refused. -/
theorem expandNamed_of_templateName :
    Text.IsUnnested "\x7btemplate\x7d" ∧ AreFlat [("template", "x")]
    ∧ expandNamed (.text "\x7btemplate\x7d") [("template", .text "x")]
      = .error (.givenTwice "URLResolver._expand()" "template")
    ∧ substitute "\x7btemplate\x7d" [("template", "x")] = "x" :=
  ⟨by decide, by decide, rfl, by decide⟩

end SearchConfig
