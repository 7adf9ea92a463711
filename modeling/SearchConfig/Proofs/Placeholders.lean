import SearchConfig.Link.Linker

/-!
# Templates filled at once

A template is read as pieces: code points, and holes where it has placeholders. To fill all holes
at once is the meaning of a template (`Template.substitute`), while `Template.expand` fills one name
after the other and looks for each in the text that has come about so far. A pass fills the holes of
its name and nothing else unless the placeholder of that name has come about as plain text
(`replaceAll_written_iff`), out of values and what stands around them; it then is filled like a hole,
and the result differs unless the value is that placeholder itself.
-/

namespace SearchConfig

namespace Text

variable {b : CodePoint} {tail new : Text}

theorem prefix_append_cons_iff (hb : b ∉ tail) :
    ∀ {x z : Text}, tail <+: x ++ b :: z ↔ tail <+: x := by
  induction tail with
  | nil => simp
  | cons a tail ih =>
    intro x z
    simp only [List.mem_cons, not_or] at hb
    rcases x with _ | ⟨c, x⟩
    · simp only [List.nil_append, List.cons_prefix_cons, List.prefix_nil, reduceCtorEq, iff_false]
      exact fun h => hb.1 h.1.symm
    · simp only [List.cons_append, List.cons_prefix_cons]
      rw [ih hb.2]

theorem replaceFrom_length_append (old new : Text) :
    ∀ (y z : Text), replaceFrom old new y.length (y ++ z) = replaceFrom old new 0 z
  | [], _ => rfl
  | _ :: y, z => replaceFrom_length_append old new y z

/-- What is replaced before a code point with which the text to be replaced begins, and which it
holds only there, ends before it. -/
theorem replaceFrom_append_cons (hb : b ∉ tail) (new : Text) :
    ∀ (x z : Text) (skip : Nat), skip ≤ x.length →
      replaceFrom (b :: tail) new skip (x ++ b :: z)
        = replaceFrom (b :: tail) new skip x ++ replaceFrom (b :: tail) new 0 (b :: z)
  | [], z, skip, h => by
    obtain rfl : skip = 0 := by simpa using h
    rfl
  | c :: x, z, skip + 1, h => by
    simp only [List.length_cons, Nat.add_le_add_iff_right] at h
    exact replaceFrom_append_cons hb new x z skip h
  | c :: x, z, 0, _ => by
    have hpre : (b :: tail).isPrefixOf (c :: (x ++ b :: z)) = (b :: tail).isPrefixOf (c :: x) := by
      rw [Bool.eq_iff_iff, List.isPrefixOf_iff_prefix, List.isPrefixOf_iff_prefix,
        List.cons_prefix_cons, List.cons_prefix_cons, prefix_append_cons_iff hb]
    simp only [List.cons_append, replaceFrom, hpre]
    split
    · rename_i h
      have hlen := (List.isPrefixOf_iff_prefix.1 h).length_le
      simp only [List.length_cons, Nat.add_le_add_iff_right] at hlen
      rw [replaceFrom_append_cons hb new x z _ (by simpa using hlen), List.append_assoc]
      rfl
    · rw [replaceFrom_append_cons hb new x z 0 (Nat.zero_le _), List.cons_append]
      rfl

theorem replaceAll_append_cons (hb : b ∉ tail) (new x z : Text) :
    replaceAll (x ++ b :: z) (b :: tail) new
      = replaceAll x (b :: tail) new ++ replaceAll (b :: z) (b :: tail) new :=
  replaceFrom_append_cons hb new x z 0 (Nat.zero_le _)

theorem replaceAll_cons_of_not {old : Text} (new : Text) {c : CodePoint} {t : Text}
    (h : ¬ old <+: c :: t) : replaceAll (c :: t) old new = c :: replaceAll t old new := by
  rw [← List.isPrefixOf_iff_prefix] at h
  simp only [replaceAll, replaceFrom, h, Bool.false_eq_true, ↓reduceIte]

theorem replaceAll_append_of_not_mem (new z : Text) :
    ∀ {y : Text}, b ∉ y → replaceAll (y ++ z) (b :: tail) new = y ++ replaceAll z (b :: tail) new
  | [], _ => rfl
  | c :: y, h => by
    simp only [List.mem_cons, not_or] at h
    have hpre : ¬ b :: tail <+: c :: (y ++ z) := fun hp => h.1 (List.cons_prefix_cons.1 hp).1
    rw [List.cons_append, replaceAll_cons_of_not new hpre,
      replaceAll_append_of_not_mem new z h.2, List.cons_append]

theorem replaceAll_old_append (new z : Text) :
    replaceAll (b :: tail ++ z) (b :: tail) new = new ++ replaceAll z (b :: tail) new := by
  have h : (b :: tail).isPrefixOf (b :: (tail ++ z)) = true :=
    List.isPrefixOf_iff_prefix.2 (List.prefix_append (b :: tail) z)
  simp only [replaceAll, List.cons_append, replaceFrom, h, ↓reduceIte, List.length_cons,
    Nat.add_sub_cancel]
  rw [replaceFrom_length_append]

theorem replaceAll_of_not_infix {old : Text} (new : Text) :
    ∀ {t : Text}, ¬ old <:+: t → replaceAll t old new = t
  | [], _ => rfl
  | c :: t, h => by
    rw [List.infix_cons_iff, not_or] at h
    rw [replaceAll_cons_of_not new h.1, replaceAll_of_not_infix new h.2]

theorem replaceFrom_self :
    ∀ (t : Text) (skip : Nat), replaceFrom (b :: tail) (b :: tail) skip t = t.drop skip
  | [], skip => by simp [replaceFrom]
  | c :: t, skip + 1 => by
    simp only [replaceFrom, List.drop_succ_cons]
    exact replaceFrom_self t skip
  | c :: t, 0 => by
    simp only [replaceFrom, List.drop_zero]
    split
    · rename_i h
      have hpre := List.isPrefixOf_iff_prefix.1 h
      rw [replaceFrom_self t]
      exact (List.prefix_iff_eq_append.1 hpre).symm ▸ rfl
    · rw [replaceFrom_self t 0, List.drop_zero]

theorem replaceAll_self (t : Text) : replaceAll t (b :: tail) (b :: tail) = t := by
  rw [replaceAll, replaceFrom_self, List.drop_zero]

/-- Each replacement changes the length alike. -/
theorem length_replaceFrom (b : CodePoint) (tail new : Text) :
    ∀ (t : Text) (skip : Nat), skip ≤ t.length →
      ∃ k, (replaceFrom (b :: tail) new skip t).length + skip + k * (b :: tail).length
        = t.length + k * new.length
  | [], skip, h => by
    obtain rfl : skip = 0 := by simpa using h
    exact ⟨0, by simp [replaceFrom]⟩
  | c :: t, skip + 1, h => by
    obtain ⟨k, hk⟩ := length_replaceFrom b tail new t skip (by simpa using h)
    refine ⟨k, ?_⟩
    simp only [replaceFrom, List.length_cons] at hk ⊢
    omega
  | c :: t, 0, _ => by
    simp only [replaceFrom]
    split
    · rename_i h
      have hlen := (List.isPrefixOf_iff_prefix.1 h).length_le
      simp only [List.length_cons, Nat.add_le_add_iff_right] at hlen
      obtain ⟨k, hk⟩ := length_replaceFrom b tail new t tail.length hlen
      refine ⟨k + 1, ?_⟩
      simp only [List.length_append, List.length_cons, Nat.add_sub_cancel, Nat.add_mul] at hk ⊢
      omega
    · obtain ⟨k, hk⟩ := length_replaceFrom b tail new t 0 (Nat.zero_le _)
      refine ⟨k, ?_⟩
      simp only [List.length_cons] at hk ⊢
      omega

/-- Each replacement changes the length alike, and a text that is found is replaced. -/
theorem length_replaceAll (b : CodePoint) (tail new : Text) :
    ∀ t : Text, ∃ k, (replaceAll t (b :: tail) new).length + k * (b :: tail).length
        = t.length + k * new.length ∧ (b :: tail <:+: t → 0 < k)
  | [] => ⟨0, by simp [replaceAll, replaceFrom], fun h => by simp at h⟩
  | c :: t => by
    simp only [replaceAll, replaceFrom]
    split
    · rename_i hpre
      have hlen := (List.isPrefixOf_iff_prefix.1 hpre).length_le
      simp only [List.length_cons, Nat.add_le_add_iff_right] at hlen
      obtain ⟨k, hk⟩ := length_replaceFrom b tail new t tail.length hlen
      refine ⟨k + 1, ?_, fun _ => Nat.succ_pos k⟩
      simp only [List.length_append, List.length_cons, Nat.add_sub_cancel, Nat.add_mul] at hk ⊢
      omega
    · rename_i hpre
      obtain ⟨k, hk, hpos⟩ := length_replaceAll b tail new t
      refine ⟨k, ?_, fun h => ?_⟩
      · simp only [replaceAll, List.length_cons] at hk ⊢
        omega
      · rw [List.infix_cons_iff, ← List.isPrefixOf_iff_prefix] at h
        exact hpos (h.resolve_left hpre)

/-- A text of the same length that takes the place of another without a change is that text. -/
theorem eq_of_replaceAll_eq (hlen : new.length = (b :: tail).length) :
    ∀ {t : Text}, b :: tail <:+: t → replaceAll t (b :: tail) new = t → new = b :: tail
  | [], h, _ => by simp at h
  | c :: t, h, heq => by
    simp only [replaceAll, replaceFrom] at heq
    split at heq
    · rename_i hpre
      obtain ⟨rest, hrest⟩ := List.isPrefixOf_iff_prefix.1 hpre
      rw [← hrest] at heq
      exact (List.append_inj heq hlen).1
    · rename_i hpre
      rw [List.infix_cons_iff, ← List.isPrefixOf_iff_prefix] at h
      exact eq_of_replaceAll_eq hlen (h.resolve_left hpre) (List.cons.inj heq).2

theorem length_replaceAll_of_length_eq (hlen : new.length = (b :: tail).length) (t : Text) :
    (replaceAll t (b :: tail) new).length = t.length := by
  obtain ⟨k, hk, -⟩ := length_replaceAll b tail new t
  rw [hlen] at hk
  omega

end Text

namespace Template

/-- A piece of a template. -/
inductive Piece where
  | point (c : CodePoint)
  /-- A placeholder of a name that is filled. -/
  | hole (name : Text)
  deriving DecidableEq

namespace Piece

def written : Piece → Text
  | point c => [c]
  | hole name => placeholder name

/-- A hole of the given name gets the value. -/
def fill (name value : Text) : Piece → List Piece
  | point c => [point c]
  | hole other => if other = name then value.map point else [hole other]

/-- The value of a hole; one without a value stays as it is written. -/
def filled (values : List (Text × Text)) : Piece → Text
  | point c => [c]
  | hole name => (Entries.get? name values).getD (placeholder name)

end Piece

open Piece

/-- Reads a template whose first `skip` code points belong to a placeholder before it. -/
def piecesFrom (names : List Text) (skip : Nat) : Text → List Piece
  | [] => []
  | c :: t =>
    match skip with
    | n + 1 => piecesFrom names n t
    | 0 =>
      match names.find? fun name => (placeholder name).isPrefixOf (c :: t) with
      | some name => hole name :: piecesFrom names (name.length + 1) t
      | none => point c :: piecesFrom names 0 t

/-- The pieces of a template in which the given names are filled. -/
def pieces (names : List Text) (template : Text) : List Piece := piecesFrom names 0 template

def written (ps : List Piece) : Text := ps.flatMap Piece.written

def fill (name value : Text) (ps : List Piece) : List Piece := ps.flatMap (Piece.fill name value)

/-- Fills all holes of a template at once. What is filled in is not looked at again. -/
def substitute (template : Text) (values : List (Text × Text)) : Text :=
  (pieces (values.map Prod.fst) template).flatMap (Piece.filled values)

/-- Stands the placeholder of the name among the pieces as plain text? -/
def Strays (name : Text) (ps : List Piece) : Prop := (placeholder name).map point <:+: ps

instance (name : Text) (ps : List Piece) : Decidable (Strays name ps) :=
  inferInstanceAs (Decidable (_ <:+: _))

/-- A name that holds no braces. -/
def IsPlain (name : Text) : Prop := .scalar '\x7b' ∉ name ∧ .scalar '\x7d' ∉ name

instance (name : Text) : Decidable (IsPlain name) := inferInstanceAs (Decidable (_ ∧ _))

section Pieces

variable {names : List Text}

@[simp] theorem written_nil : written [] = [] := rfl

@[simp] theorem written_point_cons (c : CodePoint) (ps : List Piece) :
    written (point c :: ps) = c :: written ps := rfl

@[simp] theorem written_hole_cons (name : Text) (ps : List Piece) :
    written (hole name :: ps) = placeholder name ++ written ps := rfl

theorem written_append (ps qs : List Piece) : written (ps ++ qs) = written ps ++ written qs :=
  List.flatMap_append

theorem written_map_point (t : Text) : written (t.map point) = t := by
  induction t with
  | nil => rfl
  | cons c t ih => rw [List.map_cons, written_point_cons, ih]

theorem written_piecesFrom :
    ∀ (t : Text) (skip : Nat), written (piecesFrom names skip t) = t.drop skip
  | [], skip => by simp [piecesFrom]
  | c :: t, skip + 1 => by
    simp only [piecesFrom, List.drop_succ_cons]
    exact written_piecesFrom t skip
  | c :: t, 0 => by
    simp only [piecesFrom, List.drop_zero]
    split
    · rename_i name h
      have hfound := List.find?_some h
      have hpre := List.isPrefixOf_iff_prefix.1 hfound
      rw [written_hole_cons, written_piecesFrom t]
      refine Eq.trans ?_ (List.prefix_iff_eq_append.1 hpre)
      simp [placeholder]
    · rw [written_point_cons, written_piecesFrom t 0, List.drop_zero]

/-- The pieces of a template are the template. -/
theorem written_pieces (t : Text) : written (pieces names t) = t := by
  rw [pieces, written_piecesFrom, List.drop_zero]

theorem hole_mem_piecesFrom {name : Text} :
    ∀ (t : Text) (skip : Nat), hole name ∈ piecesFrom names skip t → name ∈ names
  | [], skip, h => by simp [piecesFrom] at h
  | c :: t, skip + 1, h => hole_mem_piecesFrom t skip h
  | c :: t, 0, h => by
    simp only [piecesFrom] at h
    split at h
    · rename_i other hfind
      rcases List.mem_cons.1 h with h | h
      · rw [Piece.hole.inj h]
        exact List.mem_of_find?_eq_some hfind
      · exact hole_mem_piecesFrom t _ h
    · exact hole_mem_piecesFrom t 0 (by simpa using h)

theorem not_strays_piecesFrom {name : Text} (hname : name ∈ names) :
    ∀ (t : Text) (skip : Nat), ¬ Strays name (piecesFrom names skip t)
  | [], skip => by simp [piecesFrom, Strays, placeholder]
  | c :: t, skip + 1 => not_strays_piecesFrom hname t skip
  | c :: t, 0 => by
    have hw : written (piecesFrom names 0 (c :: t)) = _ := written_piecesFrom (c :: t) 0
    simp only [Strays, piecesFrom] at hw ⊢
    split
    · rw [List.infix_cons_iff, not_or]
      refine ⟨?_, not_strays_piecesFrom hname t _⟩
      simp [placeholder]
    · rename_i hfind
      rw [List.infix_cons_iff, not_or]
      refine ⟨fun hpre => ?_, not_strays_piecesFrom hname t 0⟩
      obtain ⟨ps, hps⟩ := hpre
      simp only [hfind] at hw
      rw [← hps, written_append, written_map_point, List.drop_zero] at hw
      have hnone := List.find?_eq_none.1 hfind name hname
      rw [List.isPrefixOf_iff_prefix] at hnone
      exact hnone ⟨_, hw⟩

/-- A name that is filled has no placeholder among the plain text of a template. -/
theorem not_strays_pieces {name : Text} (hname : name ∈ names) (t : Text) :
    ¬ Strays name (pieces names t) :=
  not_strays_piecesFrom hname t 0

end Pieces

section Fill

variable {name : Text} {value : Text}

@[simp] theorem fill_point_cons (c : CodePoint) (ps : List Piece) :
    fill name value (point c :: ps) = point c :: fill name value ps := rfl

theorem fill_hole_cons (other : Text) (ps : List Piece) :
    fill name value (hole other :: ps)
      = (if other = name then value.map point else [hole other]) ++ fill name value ps := rfl

theorem written_fill_hole_cons (other : Text) (ps : List Piece) :
    written (fill name value (hole other :: ps))
      = (if other = name then value else placeholder other) ++ written (fill name value ps) := by
  rw [fill_hole_cons, written_append]
  split
  · rw [written_map_point]
  · rw [written_hole_cons, written_nil, List.append_nil]

theorem written_fill_placeholder (ps : List Piece) :
    written (fill name (placeholder name) ps) = written ps := by
  induction ps with
  | nil => rfl
  | cons p ps ih =>
    rcases p with c | other
    · rw [fill_point_cons, written_point_cons, written_point_cons, ih]
    · rw [written_fill_hole_cons, written_hole_cons, ih]
      split
      · rename_i h
        rw [h]
      · rfl

theorem hole_mem_fill {other : Text} {ps : List Piece} (h : hole other ∈ fill name value ps) :
    hole other ∈ ps := by
  obtain ⟨p, hp, h⟩ := List.mem_flatMap.1 h
  rcases p with c | n
  · simp [Piece.fill] at h
  · simp only [Piece.fill] at h
    split at h
    · simp at h
    · rw [List.mem_singleton.1 h]
      exact hp

theorem flatMap_filled_fill (values : List (Text × Text)) (ps : List Piece) :
    (fill name value ps).flatMap (filled values) = ps.flatMap (filled ((name, value) :: values)) := by
  induction ps with
  | nil => rfl
  | cons p ps ih =>
    rw [fill, List.flatMap_cons, List.flatMap_append, ← fill, ih, List.flatMap_cons]
    congr 1
    rcases p with c | other
    · rfl
    · simp only [Piece.fill, filled, Entries.get?, List.find?_cons]
      by_cases h : other = name
      · simp [h, List.flatMap_map, filled]
      · have hne : (name == other) = false := beq_false_of_ne fun he => h he.symm
        simp [h, hne, filled, Entries.get?]

/-- All holes are filled by filling name after name. -/
theorem written_foldl_fill (values : List (Text × Text)) (ps : List Piece) :
    written (values.foldl (fun ps (name, value) => fill name value ps) ps)
      = ps.flatMap (filled values) := by
  induction values generalizing ps with
  | nil =>
    refine congrArg (fun f => ps.flatMap f) (funext fun p => ?_)
    rcases p with c | name <;> rfl
  | cons v values ih =>
    rw [List.foldl_cons, ih, flatMap_filled_fill]

end Fill

section Pass

variable {name : Text} {value : Text}

theorem placeholder_eq (name : Text) :
    placeholder name = .scalar '\x7b' :: (name ++ [.scalar '\x7d']) := rfl

theorem replaceAll_placeholder_self (name t : Text) :
    t.replaceAll (placeholder name) (placeholder name) = t :=
  Text.replaceAll_self t

theorem not_mem_of_isPlain (h : IsPlain name) :
    .scalar '\x7b' ∉ name ++ [CodePoint.scalar '\x7d'] := by
  simp only [List.mem_append, List.mem_singleton, CodePoint.scalar.injEq, not_or]
  exact ⟨h.1, by decide⟩

/-- The placeholders of different names do not begin alike. -/
theorem not_placeholder_begins {other : Text} (hname : IsPlain name) (hother : IsPlain other)
    (hne : other ≠ name) (rest : Text) : ¬ placeholder name <+: placeholder other ++ rest := by
  rintro ⟨z, hz⟩
  simp only [placeholder_eq, List.cons_append, List.append_assoc, List.cons.injEq, true_and,
    List.nil_append] at hz
  refine hne ?_
  rcases List.append_eq_append_iff.1 hz with ⟨m, hm, hm'⟩ | ⟨m, hm, hm'⟩
  · rcases m with _ | ⟨c, m⟩
    · simpa using hm
    · obtain rfl := (List.cons.inj hm').1
      exact absurd (hm ▸ List.mem_append_right name (List.mem_cons_self ..)) hother.2
  · rcases m with _ | ⟨c, m⟩
    · simpa using hm.symm
    · obtain rfl := (List.cons.inj hm').1
      exact absurd (hm ▸ List.mem_append_right other (List.mem_cons_self ..)) hname.2

/-- A pass replaces the holes of its name. -/
theorem replaceAll_placeholder_append {other : Text} (hname : IsPlain name)
    (hother : IsPlain other) (rest : Text) :
    (placeholder other ++ rest).replaceAll (placeholder name) value
      = (if other = name then value else placeholder other)
        ++ rest.replaceAll (placeholder name) value := by
  split
  · rename_i h
    subst h
    exact Text.replaceAll_old_append value rest
  · rename_i hne
    have hpre := not_placeholder_begins hname hother hne rest
    have hmem := not_mem_of_isPlain hother
    rw [placeholder_eq other, List.cons_append] at hpre ⊢
    rw [Text.replaceAll_cons_of_not value hpre, placeholder_eq name,
      Text.replaceAll_append_of_not_mem value rest hmem, List.cons_append]

/-- The holes among the pieces have plain names. -/
def HolesArePlain (ps : List Piece) : Prop := ∀ name, hole name ∈ ps → IsPlain name

theorem HolesArePlain.of_cons {p : Piece} {ps : List Piece} (h : HolesArePlain (p :: ps)) :
    HolesArePlain ps :=
  fun other hmem => h other (List.mem_cons_of_mem p hmem)

theorem HolesArePlain.fill {ps : List Piece} (h : HolesArePlain ps) (name value : Text) :
    HolesArePlain (fill name value ps) :=
  fun other hmem => h other (hole_mem_fill hmem)

/-- What a pass makes of plain text, a hole and the pieces behind it. -/
theorem replaceAll_run_hole (hname : IsPlain name) {other : Text} (hother : IsPlain other)
    (run : Text) (ps : List Piece) :
    (run ++ written (hole other :: ps)).replaceAll (placeholder name) value
      = run.replaceAll (placeholder name) value ++ ((if other = name then value
          else placeholder other) ++ (written ps).replaceAll (placeholder name) value) := by
  rw [← replaceAll_placeholder_append hname hother, written_hole_cons]
  exact Text.replaceAll_append_cons (not_mem_of_isPlain hname) value run _

theorem strays_run {run : Text} : Strays name (run.map point) ↔ placeholder name <:+: run := by
  refine ⟨fun h => ?_, fun h => h.map point⟩
  obtain ⟨t, ht, heq⟩ := List.infix_map_iff.1 h
  rw [List.map_inj_right fun _ _ => Piece.point.inj] at heq
  exact heq ▸ ht

/-- Plain text that ends at a hole makes no placeholder with what stands behind the hole. -/
theorem strays_run_hole {other : Text} {run : Text} {ps : List Piece} :
    Strays name (run.map point ++ hole other :: ps)
      ↔ placeholder name <:+: run ∨ Strays name ps := by
  have hpoint : ∀ {l : Text}, l.map point <+: hole other :: ps → l = [] := by
    rintro (_ | ⟨c, l⟩) h
    · rfl
    · simp at h
  rw [← strays_run]
  refine ⟨fun h => ?_, fun h => ?_⟩
  · rw [Strays, List.infix_append_iff] at h
    rcases h with h | h | ⟨before, after, heq, hbefore, hafter⟩
    · exact .inl h
    · rw [List.infix_cons_iff] at h
      refine h.elim (fun h => ?_) .inr
      exact absurd (hpoint h) (List.cons_ne_nil _ _)
    · obtain ⟨_, l, -, -, rfl⟩ := List.map_eq_append_iff.1 heq
      rw [hpoint hafter, List.map_nil, List.append_nil] at heq
      rw [Strays, heq]
      exact .inl hbefore.isInfix
  · rcases h with h | h
    · exact List.infix_append_of_infix_left h
    · exact List.infix_append_of_infix_right (List.infix_cons h)

/-- Without strays a pass fills the holes of its name. -/
theorem replaceAll_run_written (hname : IsPlain name) :
    ∀ (ps : List Piece) (run : Text), HolesArePlain ps → ¬ Strays name (run.map point ++ ps) →
      (run ++ written ps).replaceAll (placeholder name) value
        = run ++ written (fill name value ps)
  | [], run, _, hs => by
    rw [List.append_nil, strays_run] at hs
    simpa [fill] using Text.replaceAll_of_not_infix value hs
  | point c :: ps, run, hps, hs => by
    have ih := replaceAll_run_written hname ps (run ++ [c]) hps.of_cons (by simpa using hs)
    simpa using ih
  | hole other :: ps, run, hps, hs => by
    rw [strays_run_hole, not_or] at hs
    have ih := replaceAll_run_written hname ps [] hps.of_cons (by simpa using hs.2)
    rw [replaceAll_run_hole hname (hps other (List.mem_cons_self ..)),
      Text.replaceAll_of_not_infix value hs.1, written_fill_hole_cons]
    simpa using ih

theorem length_replaceAll_placeholder (name value run : Text) :
    ∃ k, (run.replaceAll (placeholder name) value).length + k * (placeholder name).length
        = run.length + k * value.length ∧ (placeholder name <:+: run → 0 < k) :=
  Text.length_replaceAll _ _ value run

/-- Each stray that a pass replaces changes the length of the text alike. -/
theorem length_replaceAll_run (value : Text) (hname : IsPlain name) :
    ∀ (ps : List Piece) (run : Text), HolesArePlain ps →
      ∃ k, ((run ++ written ps).replaceAll (placeholder name) value).length
          + k * (placeholder name).length
          = (run ++ written (fill name value ps)).length + k * value.length
        ∧ (Strays name (run.map point ++ ps) → 0 < k)
  | [], run, _ => by
    obtain ⟨k, hk, hpos⟩ := length_replaceAll_placeholder name value run
    refine ⟨k, ?_, fun hs => hpos (strays_run.1 (by simpa using hs))⟩
    simpa only [written_nil, List.append_nil, fill, List.flatMap_nil] using hk
  | point c :: ps, run, hps => by
    obtain ⟨k, hk, hpos⟩ := length_replaceAll_run value hname ps (run ++ [c]) hps.of_cons
    refine ⟨k, ?_, fun hs => hpos (by simpa using hs)⟩
    simpa only [written_point_cons, fill_point_cons, List.append_assoc, List.cons_append,
      List.nil_append] using hk
  | hole other :: ps, run, hps => by
    obtain ⟨i, hi, hpos⟩ := length_replaceAll_placeholder name value run
    obtain ⟨j, hj, hpos'⟩ := length_replaceAll_run value hname ps [] hps.of_cons
    refine ⟨i + j, ?_, fun hs => ?_⟩
    · rw [replaceAll_run_hole hname (hps other (List.mem_cons_self ..)), written_fill_hole_cons]
      simp only [List.length_append, List.nil_append, Nat.add_mul] at hi hj ⊢
      omega
    · rcases strays_run_hole.1 hs with hs | hs
      · have := hpos hs
        omega
      · have := hpos' hs
        omega

/-- A value of the length of its placeholder that a stray is replaced by without a change is the
placeholder itself. -/
theorem eq_of_replaceAll_run (hname : IsPlain name)
    (hlen : value.length = (placeholder name).length) :
    ∀ (ps : List Piece) (run : Text), HolesArePlain ps →
      (run ++ written ps).replaceAll (placeholder name) value = run ++ written (fill name value ps) →
      Strays name (run.map point ++ ps) → value = placeholder name
  | [], run, _, heq, hs => by
    rw [List.append_nil, strays_run] at hs
    rw [written_nil, List.append_nil] at heq
    exact Text.eq_of_replaceAll_eq hlen hs (heq.trans (List.append_nil run))
  | point c :: ps, run, hps, heq, hs =>
    eq_of_replaceAll_run hname hlen ps (run ++ [c]) hps.of_cons (by simpa using heq)
      (by simpa using hs)
  | hole other :: ps, run, hps, heq, hs => by
    rw [replaceAll_run_hole hname (hps other (List.mem_cons_self ..)),
      written_fill_hole_cons] at heq
    obtain ⟨hrun, heq⟩ := List.append_inj heq (Text.length_replaceAll_of_length_eq hlen run)
    rcases strays_run_hole.1 hs with hs | hs
    · exact Text.eq_of_replaceAll_eq hlen hs hrun
    · exact eq_of_replaceAll_run hname hlen ps [] hps.of_cons
        (by simpa using List.append_cancel_left heq) hs

/-- A pass fills exactly the holes of its name unless a placeholder of that name has strayed into
the text and the value differs from it. -/
theorem replaceAll_written_iff (value : Text) (hname : IsPlain name) {ps : List Piece}
    (hps : HolesArePlain ps) :
    (written ps).replaceAll (placeholder name) value = written (fill name value ps)
      ↔ ¬ Strays name ps ∨ value = placeholder name := by
  refine ⟨fun heq => ?_, fun h => ?_⟩
  · by_cases hs : Strays name ps
    · obtain ⟨k, hk, hpos⟩ := length_replaceAll_run value hname ps [] hps
      simp only [List.nil_append, heq] at hk
      have hlen : value.length = (placeholder name).length :=
        Nat.eq_of_mul_eq_mul_left (hpos hs) (by omega)
      exact .inr (eq_of_replaceAll_run hname hlen ps [] hps heq hs)
    · exact .inl hs
  · by_cases hs : Strays name ps
    · obtain rfl := h.resolve_left fun hn => hn hs
      rw [replaceAll_placeholder_self, written_fill_placeholder]
    · exact replaceAll_run_written hname ps [] hps hs

theorem holesArePlain_pieces {names : List Text} (hnames : ∀ other ∈ names, IsPlain other)
    (template : Text) : HolesArePlain (pieces names template) :=
  fun other h => hnames other (hole_mem_piecesFrom template 0 h)

/-- The first pass over a template fills the holes of its name. -/
theorem replaceAll_template {names : List Text} (hnames : ∀ other ∈ names, IsPlain other)
    (hname : name ∈ names) (template value : Text) :
    template.replaceAll (placeholder name) value
      = written (fill name value (pieces names template)) := by
  have hpass := (replaceAll_written_iff value (hnames name hname)
    (holesArePlain_pieces hnames template)).2 (.inl (not_strays_pieces hname template))
  rw [written_pieces] at hpass
  exact hpass

/-- A single name is filled at once. -/
theorem expand_single (hname : IsPlain name) (template value : Text) :
    expand template [(name, value)] = substitute template [(name, value)] := by
  rw [substitute, ← written_foldl_fill]
  exact replaceAll_template (List.forall_mem_singleton.2 hname) (List.mem_singleton_self name)
    template value

end Pass

end Template

end SearchConfig
