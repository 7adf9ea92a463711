import Mathlib.Data.List.Nodup
import SearchConfig.Model.Config
import SearchConfig.Proofs.DistinctKeys

/-!
# What is demanded of a configuration

A demand on a value is the list of the problems with it, each at its place in the value. The demand
on a record is that on its fields, one after the other as they are declared, and the demand on a map
that on its entries. Where no object repeats a key, no two problems with a value stand at one place
and each place leads to what is wrong there (`Demand.IsPrecise`).
-/

namespace SearchConfig

namespace Json

/-- Is the value none of those that the fault is found with? Null stands for a text, an integer, a
truth value and a map, but not for a record. -/
def fits : Fault → Json → Bool
  | .notText, .null => true
  | .notText, .string _ => true
  | .notInteger, .null => true
  | .notInteger, .int _ => true
  | .notTruth, .null => true
  | .notTruth, .bool _ => true
  | .notMap, .null => true
  | .notMap, .object _ => true
  | .notRecord, .object _ => true
  | _, _ => false

/-- The entries under the texts of their keys. -/
def byName (entries : List (List Char × Json)) : List (Text × Json) :=
  entries.map fun (key, v) => (.ofChars key, v)

/-- The value that a place leads to. -/
def at? : Json → Place → Option Json
  | v, [] => some v
  | .object entries, .key name :: place =>
    (Entries.get? name (byName entries)).bind fun v => at? v place
  | _, _ => none

end Json

namespace Problem

/-- The problem as seen from outside a step. -/
def under (step : Step) (p : Problem) : Problem := { p with place := step :: p.place }

/-- Does the place of a problem lead to what is wrong? If something is missing, it leads into an
object that lacks it. -/
def LeadsTo (v : Json) (p : Problem) : Prop :=
  if p.fault = .missing then
    ∃ place name entries, p.place = place ++ [.key name] ∧ v.at? place = some (.object entries)
      ∧ Entries.get? name (Json.byName entries) = none
  else ∃ w, v.at? p.place = some w ∧ w.fits p.fault = false

end Problem

/-- The problems with a value. -/
abbrev Demand := Json → List Problem

namespace Demand

/-- The value must be other than the fault says. -/
def must (fault : Fault) : Demand := fun v => if v.fits fault then [] else [⟨[], fault⟩]

/-- Null will do as well. -/
def orNull (demand : Demand) : Demand
  | .null => []
  | v => demand v

/-- What is demanded of the value of a field. -/
structure OfField where
  field : FieldName
  isRequired : Bool
  demand : Demand

/-- The problems with a field. It is looked up under its outer name and then under its inner one. -/
def OfField.problems (f : OfField) (entries : List (List Char × Json)) : List Problem :=
  match Entries.get? f.field.outer (Json.byName entries) with
  | some v => (f.demand v).map (Problem.under (.key f.field.outer))
  | none =>
    match Entries.get? f.field.inner (Json.byName entries) with
    | some v => (f.demand v).map (Problem.under (.key f.field.inner))
    | none => if f.isRequired then [⟨[.key f.field.outer], .missing⟩] else []

/-- The value must be an object, and its fields must be as demanded. -/
def record (fields : List OfField) : Demand
  | .object entries => fields.flatMap fun f => f.problems entries
  | v => must .notRecord v

/-- The value must be an object, and the values in it must be as demanded. -/
def map (demand : Demand) : Demand
  | .object entries => entries.flatMap fun (key, v) =>
    (demand v).map (Problem.under (.key (.ofChars key)))
  | v => must .notMap v

/-- The fields of a URL pattern in the order of their declaration. -/
def patternFields : List OfField := [
  ⟨UrlPattern.baseUrlField, false, must .notText⟩,
  ⟨UrlPattern.anchorField, false, must .notText⟩]

open RepositoryOf in
/-- The fields of a repository in the order of their declaration. The secret may be anything. -/
def repositoryFields : List OfField := [
  ⟨urlField, true, must .notText⟩,
  ⟨msBetweenPollField, false, must .notInteger⟩,
  ⟨vcsField, false, must .notText⟩,
  ⟨vcsConfigField, false, fun _ => []⟩,
  ⟨urlPatternField, false, orNull (record patternFields)⟩,
  ⟨excludeDotFilesField, false, must .notTruth⟩,
  ⟨enablePollUpdatesField, false, must .notTruth⟩,
  ⟨enablePushUpdatesField, false, must .notTruth⟩]

open ConfigOf in
/-- The fields of a configuration in the order of their declaration. -/
def configFields : List OfField := [
  ⟨dbPathField, false, must .notText⟩,
  ⟨titleField, false, must .notText⟩,
  ⟨reposField, false, map (record repositoryFields)⟩,
  ⟨maxConcurrentIndexersField, false, must .notInteger⟩,
  ⟨healthCheckUriField, false, must .notText⟩]

/-- What is demanded of a configuration. -/
def config : Demand := record configFields

/-- Do the problems with a value that repeats no key stand at places of their own, and does each
place lead to what is wrong? -/
structure IsPrecise (demand : Demand) : Prop where
  nodup : ∀ v, v.HasDistinctKeys → ((demand v).map Problem.place).Nodup
  leads : ∀ v, v.HasDistinctKeys → ∀ p ∈ demand v, p.LeadsTo v

variable {demand : Demand} {v : Json} {p : Problem}

theorem mem_must {fault : Fault} : p ∈ must fault v ↔ v.fits fault = false ∧ p = ⟨[], fault⟩ := by
  unfold must
  split
  · simp_all
  · simp_all

theorem isPrecise_must {fault : Fault} (h : fault ≠ .missing) : (must fault).IsPrecise where
  nodup v _ := by
    unfold must
    split <;> simp
  leads v _ p hp := by
    obtain ⟨hfits, rfl⟩ := mem_must.1 hp
    rw [Problem.LeadsTo, if_neg h]
    exact ⟨v, rfl, hfits⟩

theorem mem_of_mem_orNull (h : p ∈ orNull demand v) : p ∈ demand v := by
  unfold orNull at h
  split at h
  · cases h
  · exact h

theorem IsPrecise.orNull (h : demand.IsPrecise) : demand.orNull.IsPrecise where
  nodup v hv := by
    unfold Demand.orNull
    split
    · exact List.nodup_nil
    · exact h.nodup v hv
  leads v hv p hp := h.leads v hv p (mem_of_mem_orNull hp)

theorem isPrecise_nothing : IsPrecise fun _ => [] where
  nodup _ _ := List.nodup_nil
  leads _ _ _ hp := absurd hp List.not_mem_nil

section Entries

variable {entries : List (List Char × Json)} {name : Text}

theorem leadsTo_under (hget : Entries.get? name (Json.byName entries) = some v)
    (h : p.LeadsTo v) : (p.under (.key name)).LeadsTo (.object entries) := by
  have hat : ∀ place, (Json.object entries).at? (.key name :: place) = v.at? place := by
    intro place
    rw [Json.at?, hget, Option.bind_some]
  unfold Problem.LeadsTo at h ⊢
  split at h
  · rename_i hmissing
    obtain ⟨place, last, es, hplace, hes, hnone⟩ := h
    rw [if_pos (show (p.under (.key name)).fault = .missing from hmissing)]
    refine ⟨.key name :: place, last, es, ?_, ?_, hnone⟩
    · rw [Problem.under, hplace, List.cons_append]
    · rw [hat, hes]
  · rename_i hfault
    obtain ⟨w, hw, hfits⟩ := h
    rw [if_neg (show (p.under (.key name)).fault ≠ .missing from hfault)]
    exact ⟨w, (hat _).trans hw, hfits⟩

theorem hasDistinctKeys_of_get? (h : (Json.object entries).HasDistinctKeys)
    (hget : Entries.get? name (Json.byName entries) = some v) : v.HasDistinctKeys := by
  obtain ⟨⟨key, w⟩, hmem, heq⟩ := List.mem_map.1 (Entries.mem_of_get? hget)
  obtain ⟨-, rfl⟩ := Prod.mk.inj heq
  exact (Json.entriesHaveDistinctKeys_iff entries).1 h.2 _ hmem

theorem get?_byName (h : (Entries.keys entries).Nodup) {key : List Char}
    (hmem : (key, v) ∈ entries) :
    Entries.get? (.ofChars key) (Json.byName entries) = some v := by
  induction entries with
  | nil => cases hmem
  | cons entry entries ih =>
    obtain ⟨k, w⟩ := entry
    rw [Entries.keys, List.map_cons, List.nodup_cons] at h
    have hcons : Json.byName ((k, w) :: entries) = (.ofChars k, w) :: Json.byName entries := rfl
    rw [hcons, Entries.get?_cons]
    rcases List.mem_cons.1 hmem with heq | hmem
    · obtain ⟨rfl, rfl⟩ := Prod.mk.inj heq
      rw [if_pos (beq_self_eq_true _)]
    · have hne : Text.ofChars k ≠ .ofChars key := fun heq =>
        h.1 (Text.ofChars_injective heq ▸ List.mem_map.2 ⟨_, hmem, rfl⟩)
      rw [if_neg (by simpa using hne)]
      exact ih h.2 hmem

/-- Problems under one key stand at places of their own if they did before. -/
theorem nodup_under (step : Step) {problems : List Problem}
    (h : (problems.map Problem.place).Nodup) :
    ((problems.map (Problem.under step)).map Problem.place).Nodup := by
  have hplaces : (problems.map (Problem.under step)).map Problem.place
      = (problems.map Problem.place).map (List.cons step) := by
    rw [List.map_map, List.map_map]
    rfl
  rw [hplaces]
  exact h.map fun _ _ heq => (List.cons.inj heq).2

variable {f : OfField}

theorem OfField.mem_problems (h : p ∈ f.problems entries) :
    (∃ name v q, f.field.Names name ∧ Entries.get? name (Json.byName entries) = some v
      ∧ q ∈ f.demand v ∧ p = q.under (.key name))
    ∨ f.isRequired = true ∧ Entries.get? f.field.outer (Json.byName entries) = none
      ∧ p = ⟨[.key f.field.outer], .missing⟩ := by
  unfold OfField.problems at h
  split at h
  · rename_i v hv
    obtain ⟨q, hq, rfl⟩ := List.mem_map.1 h
    exact .inl ⟨_, v, q, .inl rfl, hv, hq, rfl⟩
  · rename_i houter
    split at h
    · rename_i v hv
      obtain ⟨q, hq, rfl⟩ := List.mem_map.1 h
      exact .inl ⟨_, v, q, .inr rfl, hv, hq, rfl⟩
    · split at h
      · rename_i hrequired
        exact .inr ⟨hrequired, houter, List.mem_singleton.1 h⟩
      · cases h

theorem OfField.exists_place (h : p ∈ f.problems entries) :
    ∃ name place, f.field.Names name ∧ p.place = .key name :: place := by
  rcases mem_problems h with ⟨name, v, q, hname, -, -, rfl⟩ | ⟨-, -, rfl⟩
  · exact ⟨name, q.place, hname, rfl⟩
  · exact ⟨f.field.outer, [], .inl rfl, rfl⟩

theorem OfField.nodup_problems (hf : f.demand.IsPrecise)
    (hentries : (Json.object entries).HasDistinctKeys) :
    ((f.problems entries).map Problem.place).Nodup := by
  unfold OfField.problems
  split
  · rename_i v hv
    exact nodup_under _ (hf.nodup v (hasDistinctKeys_of_get? hentries hv))
  · split
    · rename_i v hv
      exact nodup_under _ (hf.nodup v (hasDistinctKeys_of_get? hentries hv))
    · split
      · exact List.nodup_singleton _
      · exact List.nodup_nil

theorem OfField.leadsTo_of_mem (hf : f.demand.IsPrecise)
    (hentries : (Json.object entries).HasDistinctKeys) (h : p ∈ f.problems entries) :
    p.LeadsTo (.object entries) := by
  rcases mem_problems h with ⟨name, v, q, -, hv, hq, rfl⟩ | ⟨-, hnone, rfl⟩
  · exact leadsTo_under hv (hf.leads v (hasDistinctKeys_of_get? hentries hv) q hq)
  · rw [Problem.LeadsTo, if_pos rfl]
    exact ⟨[], _, entries, rfl, rfl, hnone⟩

end Entries

/-- Has no field of a record a name of another one? -/
def AreApart (fields : List OfField) : Prop :=
  fields.Pairwise fun f g => ¬ f.field.Names g.field.outer ∧ ¬ f.field.Names g.field.inner

instance (fields : List OfField) : Decidable (AreApart fields) :=
  inferInstanceAs (Decidable (List.Pairwise _ _))

theorem isPrecise_record {fields : List OfField} (hapart : AreApart fields)
    (hfields : ∀ f ∈ fields, f.demand.IsPrecise) : (record fields).IsPrecise where
  nodup v hv := by
    rcases v with _ | _ | _ | _ | _ | _ | entries
    case object =>
      rw [record, List.map_flatMap, List.nodup_flatMap]
      refine ⟨fun f hf => OfField.nodup_problems (hfields f hf) hv, hapart.imp ?_⟩
      -- Problems with different fields differ in the first step of their places.
      intro f g ⟨houter, hinner⟩ place hplace hplace'
      obtain ⟨p, hp, rfl⟩ := List.mem_map.1 hplace
      obtain ⟨q, hq, hpq⟩ := List.mem_map.1 hplace'
      obtain ⟨name, place, hname, hp⟩ := OfField.exists_place hp
      obtain ⟨name', place', hname', hq⟩ := OfField.exists_place hq
      rw [hp, hq] at hpq
      obtain ⟨rfl, -⟩ : name' = name ∧ place' = place := by simpa using hpq
      rcases hname' with rfl | rfl
      · exact houter hname
      · exact hinner hname
    all_goals exact List.nodup_singleton _
  leads v hv p hp := by
    rcases v with _ | _ | _ | _ | _ | _ | entries
    case object =>
      obtain ⟨f, hf, hp⟩ := List.mem_flatMap.1 hp
      exact OfField.leadsTo_of_mem (hfields f hf) hv hp
    all_goals exact (isPrecise_must (by decide)).leads _ hv p hp

theorem isPrecise_map (h : demand.IsPrecise) : (map demand).IsPrecise where
  nodup v hv := by
    rcases v with _ | _ | _ | _ | _ | _ | entries
    case object =>
      rw [map, List.map_flatMap, List.nodup_flatMap]
      constructor
      · rintro ⟨key, v⟩ hmem
        exact nodup_under _ (h.nodup v ((Json.entriesHaveDistinctKeys_iff entries).1 hv.2 _ hmem))
      · have hkeys : entries.Pairwise fun a b => a.1 ≠ b.1 := List.pairwise_map.1 hv.1
        refine hkeys.imp ?_
        rintro ⟨key, v⟩ ⟨key', v'⟩ hne place hplace hplace'
        simp only [List.mem_map] at hplace hplace'
        obtain ⟨_, ⟨p, -, rfl⟩, rfl⟩ := hplace
        obtain ⟨_, ⟨q, -, rfl⟩, hpq⟩ := hplace'
        have hstep := (List.cons.inj hpq).1
        exact hne (Text.ofChars_injective (Step.key.inj hstep)).symm
    all_goals exact (@isPrecise_must .notMap (by decide)).nodup _ hv
  leads v hv p hp := by
    rcases v with _ | _ | _ | _ | _ | _ | entries
    case object =>
      obtain ⟨⟨key, v⟩, hmem, hp⟩ := List.mem_flatMap.1 hp
      obtain ⟨q, hq, rfl⟩ := List.mem_map.1 hp
      exact leadsTo_under (get?_byName hv.1 hmem)
        (h.leads v ((Json.entriesHaveDistinctKeys_iff entries).1 hv.2 _ hmem) q hq)
    all_goals exact (@isPrecise_must .notMap (by decide)).leads _ hv p hp

theorem isPrecise_pattern : (record patternFields).IsPrecise := by
  refine isPrecise_record (by decide) fun f hf => ?_
  simp only [patternFields, List.mem_cons, List.not_mem_nil, or_false] at hf
  rcases hf with rfl | rfl <;> exact isPrecise_must (by decide)

theorem isPrecise_repository : (record repositoryFields).IsPrecise := by
  refine isPrecise_record (by decide) fun f hf => ?_
  simp only [repositoryFields, List.mem_cons, List.not_mem_nil, or_false] at hf
  rcases hf with rfl | rfl | rfl | rfl | rfl | rfl | rfl | rfl
  case inr.inr.inr.inl => exact isPrecise_nothing
  case inr.inr.inr.inr.inl => exact isPrecise_pattern.orNull
  all_goals exact isPrecise_must (by decide)

theorem isPrecise_config : config.IsPrecise := by
  refine isPrecise_record (by decide) fun f hf => ?_
  simp only [configFields, List.mem_cons, List.not_mem_nil, or_false] at hf
  rcases hf with rfl | rfl | rfl | rfl | rfl
  case inr.inr.inl => exact isPrecise_map isPrecise_repository
  all_goals exact isPrecise_must (by decide)

/-- Does a place lead to a record itself or into one of its fields? -/
def InRecord (fields : List OfField) (inside : OfField → Place → Prop) (place : Place) : Prop :=
  place = [] ∨ ∃ f ∈ fields, ∃ name rest, f.field.Names name ∧ place = .key name :: rest
    ∧ inside f rest

def InPattern : Place → Prop := InRecord patternFields fun _ rest => rest = []

/-- Does a place lead into a repository, but not into its secret? -/
def InRepository : Place → Prop :=
  InRecord repositoryFields fun f rest => f.field ≠ RepositoryOf.vcsConfigField
    ∧ (rest = [] ∨ f.field = RepositoryOf.urlPatternField ∧ InPattern rest)

def InConfig : Place → Prop :=
  InRecord configFields fun f rest => rest = [] ∨ f.field = ConfigOf.reposField
    ∧ ∃ name inner, rest = .key name :: inner ∧ InRepository inner

theorem inRecord_of_mem {fields : List OfField} {inside : OfField → Place → Prop}
    (hmissing : ∀ f ∈ fields, f.isRequired = true → inside f [])
    (hfields : ∀ f ∈ fields, ∀ w, ∀ q ∈ f.demand w, inside f q.place)
    (h : p ∈ record fields v) : InRecord fields inside p.place := by
  rcases v with _ | _ | _ | _ | _ | _ | entries
  case object =>
    obtain ⟨f, hf, hp⟩ := List.mem_flatMap.1 h
    rcases OfField.mem_problems hp with ⟨name, w, q, hname, -, hq, rfl⟩ | ⟨hrequired, -, rfl⟩
    · exact .inr ⟨f, hf, name, q.place, hname, rfl, hfields f hf w q hq⟩
    · exact .inr ⟨f, hf, _, [], .inl rfl, rfl, hmissing f hf hrequired⟩
  all_goals
    obtain ⟨-, rfl⟩ := mem_must.1 h
    exact .inl rfl

theorem place_of_mem_must {fault : Fault} (h : p ∈ must fault v) : p.place = [] := by
  rw [(mem_must.1 h).2]

theorem exists_of_mem_map (h : p ∈ map demand v) :
    p.place = [] ∨ ∃ name w q, q ∈ demand w ∧ p.place = .key name :: q.place := by
  rcases v with _ | _ | _ | _ | _ | _ | entries
  case object =>
    obtain ⟨⟨key, w⟩, -, hp⟩ := List.mem_flatMap.1 h
    obtain ⟨q, hq, rfl⟩ := List.mem_map.1 hp
    exact .inr ⟨.ofChars key, w, q, hq, rfl⟩
  all_goals exact .inl (@place_of_mem_must _ _ .notMap h)

theorem inPattern_of_mem (h : p ∈ record patternFields v) : InPattern p.place := by
  refine inRecord_of_mem (fun _ _ _ => rfl) (fun f hf w q hq => ?_) h
  simp only [patternFields, List.mem_cons, List.not_mem_nil, or_false] at hf
  rcases hf with rfl | rfl <;> exact place_of_mem_must hq

theorem inRepository_of_mem (h : p ∈ record repositoryFields v) : InRepository p.place := by
  refine inRecord_of_mem (fun f hf hrequired => ⟨?_, .inl rfl⟩) (fun f hf w q hq => ?_) h
  · rintro hfield
    simp only [repositoryFields, List.mem_cons, List.not_mem_nil, or_false] at hf
    rcases hf with rfl | rfl | rfl | rfl | rfl | rfl | rfl | rfl <;> revert hrequired hfield <;>
      decide
  · simp only [repositoryFields, List.mem_cons, List.not_mem_nil, or_false] at hf
    rcases hf with rfl | rfl | rfl | rfl | rfl | rfl | rfl | rfl
    case inr.inr.inr.inl => cases hq
    case inr.inr.inr.inr.inl =>
      exact ⟨by decide, .inr ⟨rfl, inPattern_of_mem (mem_of_mem_orNull hq)⟩⟩
    all_goals exact ⟨by decide, .inl (place_of_mem_must hq)⟩

/-- No problem with a configuration stands outside its fields or inside a secret. -/
theorem inConfig_of_mem (h : p ∈ config v) : InConfig p.place := by
  refine inRecord_of_mem (fun _ _ _ => .inl rfl) (fun f hf w q hq => ?_) h
  simp only [configFields, List.mem_cons, List.not_mem_nil, or_false] at hf
  rcases hf with rfl | rfl | rfl | rfl | rfl
  case inr.inr.inl =>
    rcases exists_of_mem_map hq with hplace | ⟨name, w, r, hr, hplace⟩
    · exact .inl hplace
    · exact .inr ⟨rfl, name, r.place, hplace, inRepository_of_mem hr⟩
  all_goals exact .inl (place_of_mem_must hq)

end Demand

end SearchConfig
