import Mathlib.Logic.Relation
import SearchConfig.Proofs.FieldLookup
import SearchConfig.Proofs.ReadBack
import SearchConfig.Proofs.ReplacedFiles

/-!
# Keys that do not matter

Of an object only what is found under the names of fields matters, not the order of its entries, its
other keys, which name of a field is used, or what stands under the inner name beside the outer one.
One such change anywhere in a configuration (`ConfigOf.Respelled`) leaves what every field is found
as (`found_respelled`).
-/

namespace SearchConfig

open Json Schema

/-- One change of the entries of an object that is to make no difference to a record of the fields,
given how the values of fields are changed inside. -/
inductive Json.RespelledEntries (fields : List FieldName)
    (inside : FieldName → Json → Json → Prop) :
    List (List Char × Json) → List (List Char × Json) → Prop
  | reorder {entries entries' : List (List Char × Json)} (hkeys : (Entries.keys entries).Nodup)
      (hperm : entries.Perm entries') : RespelledEntries fields inside entries entries'
  | unknown {before after : List (List Char × Json)} {key : List Char} {v : Json}
      (hkey : ∀ field ∈ fields, ¬ field.Names (.ofChars key)) :
      RespelledEntries fields inside (before ++ after) (before ++ (key, v) :: after)
  | rename {before after : List (List Char × Json)} {field : FieldName} {outer inner : List Char}
      {v : Json} (hfield : field ∈ fields) (houter : .ofChars outer = field.outer)
      (hinner : .ofChars inner = field.inner)
      (habsent : field.IsAbsent (before ++ after)) :
      RespelledEntries fields inside (before ++ (outer, v) :: after) (before ++ (inner, v) :: after)
  | shadow {before after : List (List Char × Json)} {field : FieldName} {inner : List Char}
      {v : Json} (hfield : field ∈ fields) (hinner : .ofChars inner = field.inner)
      (hne : field.inner ≠ field.outer)
      (houter : ∃ entry ∈ before ++ after, .ofChars entry.1 = field.outer) :
      RespelledEntries fields inside (before ++ after) (before ++ (inner, v) :: after)
  | inside {before after : List (List Char × Json)} {field : FieldName} {key : List Char}
      {v w : Json} (hfield : field ∈ fields) (hname : field.Names (.ofChars key))
      (hinside : inside field v w) :
      RespelledEntries fields inside (before ++ (key, v) :: after) (before ++ (key, w) :: after)

/-- Are two objects the same but for such a change? -/
def Json.Respelled (fields : List FieldName) (inside : FieldName → Json → Json → Prop)
    (v w : Json) : Prop :=
  ∃ entries entries', v = .object entries ∧ w = .object entries'
    ∧ RespelledEntries fields inside entries entries'

def UrlPattern.fields : List FieldName := [baseUrlField, anchorField]

def UrlPattern.Respelled : Json → Json → Prop := Json.Respelled fields fun _ _ _ => False

namespace RepositoryOf

def fields : List FieldName := [urlField, msBetweenPollField, vcsField, vcsConfigField,
  urlPatternField, excludeDotFilesField, enablePollUpdatesField, enablePushUpdatesField]

def Respelled : Json → Json → Prop :=
  Json.Respelled fields fun field v w => field = urlPatternField ∧ UrlPattern.Respelled v w

end RepositoryOf

namespace ConfigOf

def fields : List FieldName :=
  [dbPathField, titleField, reposField, maxConcurrentIndexersField, healthCheckUriField]

/-- In the map of the repositories one of them is changed. -/
def RespelledRepos (v w : Json) : Prop :=
  ∃ before after name repository repository', v = .object (before ++ (name, repository) :: after)
    ∧ w = .object (before ++ (name, repository') :: after)
    ∧ RepositoryOf.Respelled repository repository'

def Respelled : Json → Json → Prop :=
  Json.Respelled fields fun field v w => field = reposField ∧ RespelledRepos v w

/-- Does a series of changes, each made or undone, lead from one value to the other? -/
def SameMeaning : Json → Json → Prop := Relation.EqvGen Respelled

end ConfigOf

/-- Can the fields be told by their names? -/
def AreTellable (fields : List FieldName) : Prop :=
  ∀ field ∈ fields, ∀ name ∈ [field.outer, field.inner],
    fields.find? (fun field => field.Names name) = some field

instance (fields : List FieldName) : Decidable (AreTellable fields) :=
  inferInstanceAs (Decidable (∀ field ∈ fields, _))

theorem UrlPattern.areTellable_fields : AreTellable fields := by decide

theorem RepositoryOf.areTellable_fields : AreTellable fields := by decide

theorem ConfigOf.areTellable_fields : AreTellable fields := by decide

namespace AreTellable

variable {fields : List FieldName} {field other : FieldName} {name : Text}

theorem find?_eq (h : AreTellable fields) (hfield : field ∈ fields) (hname : field.Names name) :
    fields.find? (fun field => field.Names name) = some field :=
  h field hfield name (by simpa [FieldName.Names] using hname)

theorem eq_of_names (h : AreTellable fields) (hfield : field ∈ fields) (hother : other ∈ fields)
    (hname : field.Names name) (hname' : other.Names name) : other = field := by
  have hfound := h.find?_eq hfield hname
  rw [h.find?_eq hother hname'] at hfound
  exact Option.some.inj hfound

end AreTellable

section Entries

variable {name : Text} {before after : List (List Char × Json)}

theorem named?_insert_of_ne {key : List Char} (h : .ofChars key ≠ name) (v : Json) :
    named? name (keyed (before ++ (key, v) :: after)) = named? name (keyed (before ++ after)) := by
  rw [named?_append, named?_append, named?_cons, if_neg h, Option.or_none]

theorem find?_insert_of_ne {field : FieldName} {key : List Char}
    (h : ¬ field.Names (.ofChars key)) (v : Json) :
    find? field (keyed (before ++ (key, v) :: after)) = find? field (keyed (before ++ after)) := by
  have houter : .ofChars key ≠ field.outer := fun heq => h (.inl heq)
  have hinner : .ofChars key ≠ field.inner := fun heq => h (.inr heq)
  unfold find?
  rw [named?_insert_of_ne houter, named?_insert_of_ne hinner]

theorem find?_of_isAbsent {field : FieldName} {key : List Char} (hname : field.Names (.ofChars key))
    (habsent : field.IsAbsent (before ++ after)) (v : Json) :
    find? field (keyed (before ++ (key, v) :: after)) = some (.ofChars key, v) := by
  have hnone : ∀ name, field.Names name → named? name (keyed after) = none
      ∧ named? name (keyed before) = none := by
    intro name hname
    refine ⟨named?_eq_none_iff.2 fun entry hentry heq => ?_,
      named?_eq_none_iff.2 fun entry hentry heq => ?_⟩
    · exact habsent entry (List.mem_append_right _ hentry) (heq ▸ hname)
    · exact habsent entry (List.mem_append_left _ hentry) (heq ▸ hname)
  have hnamed : ∀ name, field.Names name → named? name (keyed (before ++ (key, v) :: after))
      = if .ofChars key = name then some v else none := by
    intro name hname
    rw [named?_append, named?_cons, (hnone name hname).1, (hnone name hname).2, Option.none_or,
      Option.or_none]
  unfold find?
  rw [hnamed _ (.inl rfl), hnamed _ (.inr rfl)]
  by_cases houter : .ofChars key = field.outer
  · rw [if_pos houter, houter]
  · have hinner : .ofChars key = field.inner := hname.resolve_left houter
    rw [if_neg houter, if_pos hinner, hinner]
    rfl

end Entries

section Found

variable {fields : List FieldName} {inside : FieldName → Json → Json → Prop}
  {entries entries' : List (List Char × Json)} {field : FieldName}

/-- Is a field found as the same in both, under whichever of its names, or as what is changed
inside? -/
def AreFoundAlike (inside : FieldName → Json → Json → Prop) (field : FieldName) :
    Option (Text × Json) → Option (Text × Json) → Prop :=
  Option.Rel fun x y => field.Names x.1 ∧ field.Names y.1 ∧ (x.2 = y.2 ∨ inside field x.2 y.2)

theorem areFoundAlike_of_eq
    (h : find? field (keyed entries') = find? field (keyed entries)) :
    AreFoundAlike inside field (find? field (keyed entries)) (find? field (keyed entries')) := by
  rw [h]
  rcases hfound : find? field (keyed entries) with _ | ⟨name, v⟩
  · exact .none
  · exact .some ⟨names_of_find? hfound, names_of_find? hfound, .inl rfl⟩

theorem areFoundAlike_inside {before after : List (List Char × Json)} {key : List Char} {v w : Json}
    (h : inside field v w) : AreFoundAlike inside field
      (find? field (keyed (before ++ (key, v) :: after)))
      (find? field (keyed (before ++ (key, w) :: after))) := by
  have hrefl : ∀ x : Option Json, Option.Rel (fun v w => v = w ∨ inside field v w) x x := by
    rintro (_ | x)
    · exact .none
    · exact .some (.inl rfl)
  have hrel : Option.Rel (fun x y => field.Names x.1 ∧ y.1 = x.1
        ∧ (x.2 = y.2 ∨ inside field x.2 y.2))
      (find? field (keyed (before ++ (key, v) :: after)))
      (find? field (keyed (before ++ (key, w) :: after))) := by
    refine find?_rel (fun _ v w => v = w ∨ inside field v w) fun name _ => ?_
    rw [named?_append, named?_append, named?_cons, named?_cons]
    refine rel_or (rel_or (hrefl _) ?_) (hrefl _)
    split
    · exact .some (.inr h)
    · exact .none
  generalize find? field (keyed (before ++ (key, v) :: after)) = x at hrel ⊢
  generalize find? field (keyed (before ++ (key, w) :: after)) = y at hrel ⊢
  cases hrel with
  | none => exact .none
  | some hrel => exact .some ⟨hrel.1, hrel.2.1 ▸ hrel.1, hrel.2.2⟩

/-- A change that is to make no difference leaves what every field is found as. -/
theorem found_respelled (hfields : AreTellable fields)
    (h : RespelledEntries fields inside entries entries') (hfield : field ∈ fields) :
    AreFoundAlike inside field (find? field (keyed entries)) (find? field (keyed entries')) := by
  -- A change that concerns another field leaves the names of this one alone.
  have hother : ∀ {other : FieldName} {name : Text}, other ∈ fields → other ≠ field →
      other.Names name → ¬ field.Names name := fun hmem hne hname hname' =>
    hne (hfields.eq_of_names hfield hmem hname' hname)
  cases h with
  | reorder hkeys hperm =>
    refine areFoundAlike_of_eq ?_
    unfold find?
    rw [named?_perm hkeys hperm, named?_perm hkeys hperm]
  | unknown hkey => exact areFoundAlike_of_eq (find?_insert_of_ne (hkey field hfield) _)
  | @rename before after other outer inner v hmem houter hinner habsent =>
    have houterNames : other.Names (.ofChars outer) := .inl houter
    have hinnerNames : other.Names (.ofChars inner) := .inr hinner
    by_cases hsame : other = field
    · subst hsame
      rw [find?_of_isAbsent houterNames habsent, find?_of_isAbsent hinnerNames habsent]
      exact .some ⟨houterNames, hinnerNames, .inl rfl⟩
    · refine areFoundAlike_of_eq ?_
      rw [find?_insert_of_ne (hother hmem hsame houterNames),
        find?_insert_of_ne (hother hmem hsame hinnerNames)]
  | @shadow before after other inner v hmem hinner hne houter =>
    refine areFoundAlike_of_eq ?_
    by_cases hsame : other = field
    · subst hsame
      rcases houterNamed : named? other.outer (keyed (before ++ after)) with _ | found
      · obtain ⟨entry, hentry, heq⟩ := houter
        exact absurd heq (named?_eq_none_iff.1 houterNamed entry hentry)
      · have hinsert : .ofChars inner ≠ other.outer := fun heq => hne (hinner.symm.trans heq)
        unfold find?
        rw [named?_insert_of_ne hinsert, houterNamed]
    · exact find?_insert_of_ne (hother hmem hsame (.inr hinner)) v
  | @inside before after other key v w hmem hname hinside =>
    by_cases hsame : other = field
    · exact areFoundAlike_inside (hsame ▸ hinside)
    · refine areFoundAlike_of_eq ?_
      have hnames := hother hmem hsame hname
      rw [find?_insert_of_ne hnames, find?_insert_of_ne hnames]

end Found

end SearchConfig
