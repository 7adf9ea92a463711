import Mathlib.Data.List.Basic
import SearchConfig.Files.Canonical

/-!
# Texts of paths

The parts of a path that comes from a text are names without slashes that stand for a step
(`isName_of_mem_ofText`), and joined they are taken apart into the same parts again
(`split_joined`). If the slash and the dot have a property, the code points of a path have it just if
those of its parts have it (`madeOf_toText_iff`), or those of the text that it came from
(`madeOf_toText_ofText_iff`). The operating system takes a text as a path if it takes every code
point of it (`isUsable_iff`). A path may be seen from another part by part
(`joinPaths_joined_append`).
-/

namespace SearchConfig

namespace CodePoint

/-- Does the operating system take the code point in a path? -/
def IsUsable (c : CodePoint) : Prop :=
  c ≠ .scalar '\x00' ∧ (c.char?.isSome = true ∨ c.isByte = true)

instance : DecidablePred IsUsable := fun _ => inferInstanceAs (Decidable (_ ∧ _))

/-- A property that the code points have of which paths are made besides names. -/
structure SuitsPaths (P : CodePoint → Prop) : Prop where
  slash : P Path.slash
  dot : P (.scalar '.')

theorem suitsPaths_isUsable : SuitsPaths IsUsable := ⟨by decide, by decide⟩

end CodePoint

namespace Text

/-- Has every code point of the text the property? -/
def MadeOf (P : CodePoint → Prop) (t : Text) : Prop := ∀ c ∈ t, P c

theorem madeOf_append {P : CodePoint → Prop} (s t : Text) :
    MadeOf P (s ++ t) ↔ s.MadeOf P ∧ t.MadeOf P := List.forall_mem_append

theorem madeOf_cons {P : CodePoint → Prop} (c : CodePoint) (t : Text) :
    MadeOf P (c :: t) ↔ P c ∧ t.MadeOf P := List.forall_mem_cons

/-- Does the operating system take the text as a path? -/
def IsUsable (t : Text) : Prop := t.pathFault? = none

instance : DecidablePred IsUsable := fun _ => inferInstanceAs (Decidable (_ = _))

theorem unencodableFrom?_eq_none_iff (position : Nat) (t : Text) :
    unencodableFrom? position t = none ↔ ∀ c ∈ t, c.char?.isSome = true ∨ c.isByte = true := by
  induction t generalizing position with
  | nil => simp [unencodableFrom?]
  | cons c t ih =>
    rcases c with c | offset
    · simp [unencodableFrom?, ih, CodePoint.char?]
    · have hnone : (CodePoint.surrogate offset).char?.isSome = false := rfl
      simp only [unencodableFrom?, List.forall_mem_cons, hnone, Bool.false_eq_true, false_or]
      split
      · rename_i hbyte
        simp [hbyte, ih]
      · rename_i hbyte
        simp [hbyte]

theorem isUsable_iff (t : Text) : t.IsUsable ↔ t.MadeOf CodePoint.IsUsable := by
  have hnone := unencodableFrom?_eq_none_iff 0 t
  have hnull : t.holdsNull = true ↔ CodePoint.scalar '\x00' ∈ t := by
    simp [holdsNull]
  unfold IsUsable pathFault?
  rcases hrun : unencodableFrom? 0 t with _ | run
  · simp only [hrun, true_iff] at hnone
    simp only [ite_eq_right_iff, reduceCtorEq, imp_false, hnull]
    constructor
    · rintro hmem c hc
      exact ⟨fun heq => hmem (heq ▸ hc), hnone c hc⟩
    · rintro hall hmem
      exact (hall _ hmem).1 rfl
  · simp only [hrun, reduceCtorEq, false_iff] at hnone ⊢
    exact fun hall => hnone fun c hc => (hall c hc).2

theorem split_ne_nil (separator : CodePoint) (t : Text) : split separator t ≠ [] := by
  cases t with
  | nil => simp [split]
  | cons c t =>
    rw [split]
    split
    · simp
    · split <;> simp

theorem split_of_not_mem {separator : CodePoint} {t : Text} (h : separator ∉ t) :
    split separator t = [t] := by
  induction t with
  | nil => rfl
  | cons c t ih =>
    rw [List.mem_cons, not_or] at h
    rw [split, if_neg (Ne.symm h.1), ih h.2]

theorem split_append {separator : CodePoint} {piece : Text} (h : separator ∉ piece) (t : Text) :
    split separator (piece ++ separator :: t) = piece :: split separator t := by
  induction piece with
  | nil => rw [List.nil_append, split, if_pos rfl]
  | cons c piece ih =>
    rw [List.mem_cons, not_or] at h
    rw [List.cons_append, split, if_neg (Ne.symm h.1), ih h.2]

theorem split_cons {separator c : CodePoint} (h : c ≠ separator) {t piece : Text}
    {pieces : List Text} (hsplit : split separator t = piece :: pieces) :
    split separator (c :: t) = (c :: piece) :: pieces := by
  rw [split, if_neg h, hsplit]

/-- No piece holds the separator. -/
theorem not_mem_of_mem_split {separator : CodePoint} {t : Text} :
    ∀ piece ∈ split separator t, separator ∉ piece := by
  induction t with
  | nil => simp [split]
  | cons c t ih =>
    by_cases hc : c = separator
    · rw [split, if_pos hc, List.forall_mem_cons]
      exact ⟨List.not_mem_nil, ih⟩
    · obtain ⟨piece, pieces, hsplit⟩ := List.exists_cons_of_ne_nil (split_ne_nil separator t)
      rw [hsplit, List.forall_mem_cons] at ih
      rw [split_cons hc hsplit, List.forall_mem_cons, List.mem_cons, not_or]
      exact ⟨⟨Ne.symm hc, ih.1⟩, ih.2⟩

end Text

namespace Path

/-- Is a part a name, without slashes and not standing for the directory itself? -/
def IsName (part : Text) : Prop := slash ∉ part ∧ isIdle part = false

theorem joined_nil : joined [] = [] := rfl

theorem joined_singleton (part : Text) : joined [part] = part := by
  simp [joined, Text.join, List.intercalate]

theorem joined_cons (part next : Text) (parts : List Text) :
    joined (part :: next :: parts) = part ++ slash :: joined (next :: parts) := by
  simp [joined, Text.join, List.intercalate]

/-- Joined parts are taken apart into the same parts. -/
theorem split_joined : ∀ {parts : List Text}, (∀ part ∈ parts, slash ∉ part) → parts ≠ [] →
    (joined parts).split slash = parts
  | [], _, hne => absurd rfl hne
  | [part], h, _ => by
    rw [joined_singleton, Text.split_of_not_mem (h part (List.mem_singleton_self part))]
  | part :: next :: parts, h, _ => by
    rw [List.forall_mem_cons] at h
    rw [joined_cons, Text.split_append h.1, split_joined h.2 (List.cons_ne_nil _ _)]

/-- The pieces between the slashes, joined, are the text. -/
theorem joined_split (t : Text) : joined (t.split slash) = t := by
  induction t with
  | nil => rfl
  | cons c t ih =>
    obtain ⟨piece, pieces, hsplit⟩ := List.exists_cons_of_ne_nil (Text.split_ne_nil slash t)
    rw [hsplit] at ih
    by_cases hc : c = slash
    · rw [Text.split, if_pos hc, hsplit, joined_cons, ih, hc, List.nil_append]
    · rw [Text.split_cons hc hsplit]
      rcases pieces with _ | ⟨next, pieces⟩
      · rw [joined_singleton, ← ih, joined_singleton]
      · rw [joined_cons, List.cons_append, ← joined_cons, ih]

theorem joined_append : ∀ {parts rest : List Text}, parts ≠ [] → rest ≠ [] →
    joined (parts ++ rest) = joined parts ++ slash :: joined rest
  | [], _, hne, _ => absurd rfl hne
  | [part], next :: rest, _, _ => by
    rw [List.singleton_append, joined_cons, joined_singleton]
  | part :: next :: parts, rest, _, hrest => by
    rw [List.cons_append, List.cons_append, joined_cons, ← List.cons_append,
      joined_append (List.cons_ne_nil _ _) hrest, joined_cons, List.append_assoc, List.cons_append]

section MadeOf

variable {P : CodePoint → Prop} (hP : CodePoint.SuitsPaths P)

include hP

theorem madeOf_joined_iff : ∀ (parts : List Text),
    (joined parts).MadeOf P ↔ ∀ part ∈ parts, part.MadeOf P
  | [] => by simp [joined_nil, Text.MadeOf]
  | [part] => by rw [joined_singleton, List.forall_mem_singleton]
  | part :: next :: parts => by
    rw [joined_cons, Text.madeOf_append, Text.madeOf_cons, madeOf_joined_iff (next :: parts)]
    simp only [hP.slash, true_and, List.forall_mem_cons]

theorem madeOf_here : here.MadeOf P := by
  intro c hc
  obtain rfl := List.mem_singleton.1 hc
  exact hP.dot

theorem madeOf_above : above.MadeOf P := by
  intro c hc
  obtain rfl : c = .scalar '.' := by simpa [above, Text.ofString, Text.ofChars] using hc
  exact hP.dot

/-- A path is made of what its parts are made of. -/
theorem madeOf_toText_iff (p : Path) : p.toText.MadeOf P ↔ ∀ part ∈ p.parts, part.MadeOf P := by
  have hjoined := madeOf_joined_iff hP p.parts
  unfold toText
  split
  · split
    · rename_i hempty
      rw [List.isEmpty_iff.1 hempty]
      simp [madeOf_here hP]
    · exact hjoined
  · rw [Text.madeOf_cons, hjoined]
    simp only [hP.slash, true_and]
  · rw [Text.madeOf_cons, Text.madeOf_cons, hjoined]
    simp only [hP.slash, true_and]

theorem madeOf_iff_split (t : Text) : t.MadeOf P ↔ ∀ piece ∈ t.split slash, piece.MadeOf P := by
  rw [← madeOf_joined_iff hP, joined_split]

/-- The path of a text is made of what the text is made of. -/
theorem madeOf_toText_ofText_iff (t : Text) : (ofText t).toText.MadeOf P ↔ t.MadeOf P := by
  have hidle : ∀ part : Text, isIdle part = true → part.MadeOf P := by
    intro part hpart
    rw [isIdle, Bool.or_eq_true, List.isEmpty_iff, beq_iff_eq] at hpart
    rcases hpart with rfl | rfl
    · exact fun c hc => absurd hc List.not_mem_nil
    · exact madeOf_here hP
  rw [madeOf_toText_iff hP, madeOf_iff_split hP]
  constructor
  · rintro h piece hpiece
    rcases hp : isIdle piece
    · exact h piece (List.mem_filter.2 ⟨hpiece, by simp [hp]⟩)
    · exact hidle piece hp
  · rintro h part hpart
    exact h part (List.mem_filter.1 hpart).1

end MadeOf

theorem isUsable_iff_split (t : Text) : t.IsUsable ↔ ∀ piece ∈ t.split slash, piece.IsUsable := by
  simp only [Text.isUsable_iff]
  exact madeOf_iff_split CodePoint.suitsPaths_isUsable t

/-- The operating system takes a path if it takes its parts. -/
theorem isUsable_toText_iff (p : Path) : p.toText.IsUsable ↔ ∀ part ∈ p.parts, part.IsUsable := by
  simp only [Text.isUsable_iff]
  exact madeOf_toText_iff CodePoint.suitsPaths_isUsable p

/-- The operating system takes the path of a text if it takes the text. -/
theorem isUsable_toText_ofText_iff (t : Text) : (ofText t).toText.IsUsable ↔ t.IsUsable := by
  simp only [Text.isUsable_iff]
  exact madeOf_toText_ofText_iff CodePoint.suitsPaths_isUsable t

theorem isName_of_mem_ofText {t part : Text} (h : part ∈ (ofText t).parts) : IsName part := by
  obtain ⟨hsplit, hidle⟩ := List.mem_filter.1 h
  exact ⟨Text.not_mem_of_mem_split part hsplit, by simpa using hidle⟩

theorem isName_of_mem_append {p q : Path} (hp : ∀ part ∈ p.parts, IsName part)
    (hq : ∀ part ∈ q.parts, IsName part) : ∀ part ∈ (p.append q).parts, IsName part := by
  unfold append
  split
  · exact hq
  · exact List.forall_mem_append.2 ⟨hp, hq⟩

theorem isName_of_mem_parent {t : Text} : ∀ part ∈ (ofText t).parent.parts, IsName part :=
  fun _ hpart => isName_of_mem_ofText (List.dropLast_subset _ hpart)

theorem isName_of_mem_parent_append (t u : Text) :
    ∀ part ∈ ((ofText t).parent.append (ofText u)).parts, IsName part :=
  isName_of_mem_append isName_of_mem_parent fun _ => isName_of_mem_ofText

theorem mem_of_mem_cleanParts {part : Text} {parts : List Text} (h : part ∈ cleanParts parts) :
    part ∈ parts := by
  have hfold : ∀ (parts cleaned : List Text),
      part ∈ parts.foldl (fun cleaned part =>
        if part = above then cleaned.dropLast else cleaned ++ [part]) cleaned →
      part ∈ cleaned ∨ part ∈ parts := by
    intro parts
    induction parts with
    | nil => exact fun _ h => .inl h
    | cons next parts ih =>
      intro cleaned h
      rcases ih _ h with hmem | hmem
      · simp only [] at hmem
        split at hmem
        · exact .inl (List.dropLast_subset _ hmem)
        · rcases List.mem_append.1 hmem with hmem | hmem
          · exact .inl hmem
          · exact .inr (List.mem_singleton.1 hmem ▸ List.mem_cons_self ..)
      · exact .inr (List.mem_cons_of_mem _ hmem)
  exact (hfold parts [] h).resolve_left List.not_mem_nil

end Path

namespace Files

open SearchConfig.Path

/-- The path with a slash at its end, unless nothing stands in front of it. -/
def withSlash (path : Text) : Text :=
  if path.isEmpty || path.getLast? = some slash then path else path ++ [slash]

theorem joinPaths_eq {second : Text} (h : second.head? ≠ some slash) (first : Text) :
    joinPaths first second = withSlash first ++ second := by
  rw [joinPaths, if_neg h, withSlash]
  split
  · rfl
  · rw [List.append_assoc, List.singleton_append]

theorem withSlash_withSlash (path : Text) : withSlash (withSlash path) = withSlash path := by
  unfold withSlash
  split
  · rfl
  · simp

theorem ne_nil_of_isName {part : Text} (h : IsName part) : part ≠ [] := by
  rintro rfl
  exact absurd h.2 (by decide)

theorem joined_ne_nil {parts : List Text} (h : ∀ part ∈ parts, IsName part) (hne : parts ≠ []) :
    joined parts ≠ [] := by
  intro heq
  have hsplit := split_joined (fun part hpart => (h part hpart).1) hne
  rw [heq] at hsplit
  have hmem : ([] : Text) ∈ parts := hsplit ▸ List.mem_singleton_self _
  exact ne_nil_of_isName (h [] hmem) rfl

theorem head?_joined {parts : List Text} (h : ∀ part ∈ parts, IsName part) :
    (joined parts).head? ≠ some slash := by
  rcases parts with _ | ⟨part, parts⟩
  · simp [joined_nil]
  · rw [List.forall_mem_cons] at h
    obtain ⟨c, part', rfl⟩ := List.exists_cons_of_ne_nil (ne_nil_of_isName h.1)
    have hc : c ≠ slash := fun hc => h.1.1 (hc ▸ List.mem_cons_self ..)
    rcases parts with _ | ⟨next, parts⟩
    · simpa [joined_singleton] using hc
    · simpa [joined_cons] using hc

theorem getLast?_joined : ∀ {parts : List Text}, (∀ part ∈ parts, IsName part) → parts ≠ [] →
    (joined parts).getLast? ≠ some slash
  | [], _, hne => absurd rfl hne
  | [part], h, _ => by
    rw [joined_singleton]
    exact fun hlast => (h part (List.mem_singleton_self part)).1 (List.mem_of_getLast? hlast)
  | part :: next :: parts, h, _ => by
    rw [List.forall_mem_cons] at h
    have hne := joined_ne_nil h.2 (List.cons_ne_nil _ _)
    rw [joined_cons, List.getLast?_append_of_ne_nil part (List.cons_ne_nil _ _),
      ← List.singleton_append, List.getLast?_append_of_ne_nil [slash] hne]
    exact getLast?_joined h.2 (List.cons_ne_nil _ _)

/-- Paths can be joined part by part. -/
theorem joinPaths_joined_append {names rest : List Text} (hnames : ∀ part ∈ names, IsName part)
    (hrest : ∀ part ∈ rest, IsName part) (hne : rest ≠ []) (path : Text) :
    joinPaths path (joined (names ++ rest))
      = joinPaths (joinPaths path (joined names)) (joined rest) := by
  rw [joinPaths_eq (head?_joined hrest), joinPaths_eq (head?_joined hnames),
    joinPaths_eq (head?_joined (List.forall_mem_append.2 ⟨hnames, hrest⟩))]
  rcases names with _ | ⟨name, names⟩
  · rw [List.nil_append, joined_nil, List.append_nil, withSlash_withSlash]
  · have hjoined := joined_ne_nil hnames (List.cons_ne_nil _ _)
    have hlast := getLast?_joined hnames (List.cons_ne_nil _ _)
    rw [← List.getLast?_append_of_ne_nil (withSlash path) hjoined] at hlast
    have hslash : withSlash (withSlash path ++ joined (name :: names))
        = withSlash path ++ joined (name :: names) ++ [slash] := by
      rw [withSlash, if_neg]
      simpa only [Bool.or_eq_true, List.isEmpty_iff, List.append_eq_nil_iff, hjoined, and_false,
        false_or, decide_eq_true_eq] using hlast
    rw [hslash, joined_append (List.cons_ne_nil _ _) hne]
    simp

theorem madeOf_joinPaths {P : CodePoint → Prop} (hP : CodePoint.SuitsPaths P) {first second : Text}
    (hfirst : first.MadeOf P) (hsecond : second.MadeOf P) : (joinPaths first second).MadeOf P := by
  unfold joinPaths
  split
  · exact hsecond
  · split
    · exact (Text.madeOf_append first second).2 ⟨hfirst, hsecond⟩
    · rw [Text.madeOf_append, Text.madeOf_cons]
      exact ⟨hfirst, hP.slash, hsecond⟩

end Files

end SearchConfig
