import SearchConfig.Proofs.OrderedEntries
import SearchConfig.Workspace.Change

/-!
# Live objects with plain members

An object that has the members of its kind and nothing else is asked for them without detours
(`Workspace.Has.memberValue`), and takes a new value for one of them without anything else being
changed (`Workspace.Has.gives_assignMember`). So a default comes into a member just where there is a
gap (`Workspace.Has.gives_fillZero`, `Workspace.Has.gives_fillEmpty`). Objects of different kinds
have different members, so writing to one never touches another one (`Workspace.Has.write_other`).
-/

namespace SearchConfig

namespace Value

theorem isText_text (t u : Text) : (text u).isText t = (u == t) := by
  rw [Bool.eq_iff_iff, isText, decide_eq_true_iff, beq_iff_eq, eq_comm]

theorem part?_add : (Member.value (.set [])).part? "add"
    = some (routine (.set []) (.value (.set [])) "add") := by
  have hown : (Value.set []).ownNames.contains "add" = true := by
    -- The texts are spelled out first, for the kernel is slow to take them apart itself.
    simp only [ownNames, setNames, namesIn, Text.ofString, String.toList_append,
      String.reduceToList]
    decide +kernel
  have hmethod : (Value.set []).hasMethod "add" = true := by
    rw [hasMethod, hown, Bool.or_true]
  rw [Member.part?, partAs?, if_neg (by decide), if_neg (by decide), if_neg (by decide)]
  exact if_pos hmethod

variable (name : Text) (v : Value) (entries : List (Text × Value))

theorem named?_underNames : named? name (underNames entries) = Entries.get? name entries := by
  have hkey : (fun entry : Value × Value => entry.1.isText name) ∘
      (fun entry : Text × Value => (text entry.1, entry.2)) = fun entry => entry.1 == name := by
    funext entry
    exact isText_text name entry.1
  rw [named?, underNames, List.find?_map, hkey, Option.map_map]
  rfl

theorem putNamed_underNames :
    putNamed name v (underNames entries) = underNames (Entries.put name v entries) := by
  induction entries with
  | nil => rfl
  | cons entry entries ih =>
    obtain ⟨k, u⟩ := entry
    simp only [underNames, List.map_cons, putNamed, isText_text, Entries.put] at ih ⊢
    split
    · rfl
    · rw [ih, List.map_cons]

end Value

namespace Kind

/-- The names of the members that an object of the kind is made with. -/
def names : Kind → List Text
  | secret => [Secret.payloadMember]
  | kind => kind.fields.map fun (field, _) => field.inner

theorem isPlain_of_mem_names (kind : Kind) (hmodel : kind.isModel) : ∀ name ∈ kind.names,
    (kind.field? name).isSome ∧ name ≠ Value.kindMember ∧ name ≠ membersMember
      ∧ name ≠ referrersMember ∧ name ≠ Member.fieldTableName ∧ name ≠ settersMember
      ∧ Entries.get? name shownHidden = none := by
  cases kind with
  | config => decide
  | repository => decide
  | pattern => decide
  | _ => cases hmodel

end Kind

namespace Workspace

section Actions

variable {α β : Type} {x : Action α} {f : α → Action β} {a : α} {b : β} {w w' w'' : Workspace}

/-- Does an action on a workspace succeed, and what does it tell and leave? -/
def Gives (action : Action α) (w : Workspace) (a : α) (w' : Workspace) : Prop :=
  action.run.run w = (.ok a, w')

theorem gives_bind (h : Gives x w a w') (h' : Gives (f a) w' b w'') : Gives (x >>= f) w b w'' := by
  unfold Gives at *
  rw [ExceptT.run_bind, StateT.run_bind, h]
  exact h'

theorem gives_pure (a : α) (w : Workspace) : Gives (pure a) w a w := rfl

theorem gives_get (w : Workspace) : Gives (get : Action Workspace) w w w := rfl

theorem gives_used {r : Except Misuse α} (h : r = .ok a) (w : Workspace) :
    Gives (used r) w a w := by
  rw [h]
  rfl

end Actions

theorem find_of_part? (w : Workspace) {v : Value} {name : Text} {part : Member}
    (hv : ∀ h, v ≠ .live h) (h : (Member.value v).part? name = some part) :
    w.find (.value v) name = .ok part := by
  have hreach : w.reach = (w.reach - 1) + 1 := by unfold reach; omega
  rw [find, hreach, findFrom.eq_def]
  simp only []
  split
  · rename_i heq
    exact absurd (Member.value.inj heq) (hv _)
  · rw [h]

theorem call_add (w : Workspace) : w.call (.set []) "add" = .ok () := by
  rw [call, w.find_of_part? (fun h => Value.noConfusion) Value.part?_add]
  rfl

theorem holds_text (w : Workspace) (t needle : Text) :
    w.holds (.text t) needle = .ok (Text.occursIn needle t) := by
  have hreach : w.reach = (w.reach - 1) + 1 := by unfold reach; omega
  rw [holds, hreach, holdsFrom]
  rfl

variable {w : Workspace} {h k : Handle} {kind kind' : Kind} {members members' : List (Text × Value)}

/-- Is an object one of a kind that has these members and nothing else? -/
structure Has (w : Workspace) (h : Handle) (kind : Kind) (members : List (Text × Value)) :
    Prop where
  kind_eq : h.kind = kind
  stored : w.objects[h.number]? = some (.ofEntries (Value.underNames members))
  keys_eq : Entries.keys members = kind.names

/-- The workspace with other members in an object. -/
def write (w : Workspace) (h : Handle) (members : List (Text × Value)) : Workspace :=
  w.store h (.ofEntries (Value.underNames members))

/-- The workspace with one more object. -/
def withObject (w : Workspace) (members : List (Text × Value)) : Workspace :=
  { w with objects := w.objects ++ [.ofEntries (Value.underNames members)] }

namespace Has

section Places

theorem members_eq (hh : w.Has h kind members) (hk : w.Has k kind' members')
    (hnumber : k.number = h.number) : members = members' := by
  have heq := hh.stored.symm.trans (hnumber ▸ hk.stored)
  have hentries : Value.underNames members = Value.underNames members' := by
    simpa only [Object.ofEntries, Option.some.injEq, Object.mk.injEq, Holding.own.injEq,
      and_true] using heq
  exact List.map_injective_iff.2 (fun a b hab => by simpa [Prod.ext_iff] using hab) hentries

theorem eq_of_number (hh : w.Has h kind members) (hk : w.Has k kind members')
    (hnumber : h.number = k.number) : h = k := by
  rcases h with ⟨_, n⟩
  rcases k with ⟨_, m⟩
  obtain rfl : n = m := hnumber
  exact congrArg (Handle.mk · n) (hh.kind_eq.trans hk.kind_eq.symm)

theorem number_ne (hh : w.Has h kind members) (hk : w.Has k kind' members')
    (hne : kind.names ≠ kind'.names) : k.number ≠ h.number := fun hnumber =>
  hne <| by rw [← hh.keys_eq, ← hk.keys_eq, hh.members_eq hk hnumber]

theorem write_self (hh : w.Has h kind members) (hkeys : Entries.keys members' = kind.names) :
    (w.write h members').Has h kind members' where
  kind_eq := hh.kind_eq
  stored := by
    have hlt := (List.getElem?_eq_some_iff.1 hh.stored).1
    simp only [write, store, List.getElem?_set_self hlt]
  keys_eq := hkeys

theorem write_other (hk : w.Has k kind members) (hne : k.number ≠ h.number)
    (members' : List (Text × Value)) : (w.write h members').Has k kind members where
  kind_eq := hk.kind_eq
  stored := by
    rw [← hk.stored]
    exact List.getElem?_set_ne hne.symm
  keys_eq := hk.keys_eq

theorem write_members (hh : w.Has h kind members) : w.write h members = w := by
  have hset : w.objects.set h.number (.ofEntries (Value.underNames members)) = w.objects := by
    obtain ⟨hlt, hget⟩ := List.getElem?_eq_some_iff.1 hh.stored
    rw [← hget, List.set_getElem_self]
  rw [write, store, hset]

/-- What is there already may as well be written again. -/
theorem write_put (hh : w.Has h kind members) {name : Text} {v : Value}
    (hv : Entries.get? name members = some v) : w.write h (Entries.put name v members) = w := by
  rw [Entries.put_of_get? hv, hh.write_members]

theorem withObject_of_has (hh : w.Has h kind members) (members' : List (Text × Value)) :
    (w.withObject members').Has h kind members where
  kind_eq := hh.kind_eq
  stored := by
    have hlt := (List.getElem?_eq_some_iff.1 hh.stored).1
    rw [← hh.stored]
    exact List.getElem?_append_left hlt
  keys_eq := hh.keys_eq

end Places

theorem stored_eq (hh : w.Has h kind members) :
    w.stored h = .ofEntries (Value.underNames members) := by
  rw [Workspace.stored, hh.stored]
  rfl

theorem holder (hh : w.Has h kind members) : w.holder h = h := by
  rw [Workspace.holder, hh.stored_eq]
  rfl

theorem entries (hh : w.Has h kind members) : w.entries h = Value.underNames members := by
  rw [Workspace.entries, hh.holder, hh.stored_eq]
  rfl

theorem member? (hh : w.Has h kind members) (name : Text) :
    w.member? h name = Entries.get? name members := by
  rw [Workspace.member?, hh.entries, Value.named?_underNames]

theorem mem_names (hh : w.Has h kind members) {name : Text} {v : Value}
    (hv : Entries.get? name members = some v) : name ∈ kind.names :=
  hh.keys_eq ▸ List.mem_map_of_mem (Entries.mem_of_get? hv)

theorem gives_put (hh : w.Has h kind members) (name : Text) (v : Value) :
    Gives (put h name v) w () (w.write h (Entries.put name v members)) := by
  have hstore : w.storeEntries h (Value.putNamed name v (w.entries h))
      = w.write h (Entries.put name v members) := by
    rw [hh.entries, Value.putNamed_underNames, storeEntries, hh.holder, hh.stored_eq]
    rfl
  unfold Gives put
  rw [← hstore]
  rfl

theorem gives_callable_add (hh : w.Has h kind members) :
    Gives (do callable ((← get).hidden h Kind.givenMember) "add") w () w := by
  have hhidden : w.hidden h Kind.givenMember = .set [] := by
    rw [hidden, hh.stored_eq]
    rfl
  refine gives_bind (gives_get w) ?_
  rw [hhidden]
  exact gives_bind (gives_get w) (gives_used w.call_add w)

section Fields

variable {name : Text} {field : FieldName} {v : Value} (hh : w.Has h kind members)
  (hmodel : kind.isModel)
include hh hmodel

theorem memberValue (hv : Entries.get? name members = some v) :
    w.memberValue (.live h) name = .ok v := by
  obtain ⟨-, hkind, hmembers, href, htable, -, hshown⟩ :=
    Kind.isPlain_of_mem_names kind hmodel name (hh.mem_names hv)
  have hown : w.ownPart? h name = some (.value v) := by
    rw [ownPart?, if_neg hkind, hh.member?, hv, hh.kind_eq]
    cases kind with
    | dictionary => cases hmodel
    | secret => cases hmodel
    | _ =>
      simp only [if_neg hmembers, if_neg href, if_neg htable, hmodel, hshown]
      rfl
  have hreach : w.reach = (w.reach - 1) + 1 := by unfold reach; omega
  rw [Workspace.memberValue, Workspace.find, hreach, findFrom]
  simp only [hown]
  rfl

theorem gives_readMember (hv : Entries.get? name members = some v) :
    Gives (readMember (.live h) name) w v w :=
  gives_bind (gives_get w) (gives_used (hh.memberValue hmodel hv) w)

theorem gives_assignMember (hname : name ∈ kind.names) (v : Value) :
    Gives (assignMember (.value (.live h)) name v) w ()
      (w.write h (Entries.put name v members)) := by
  have hfield := (Kind.isPlain_of_mem_names kind hmodel name hname).1
  have hsetters : w.member? h Kind.settersMember = none := by
    rw [hh.member?, Entries.get?_eq_none_iff, hh.keys_eq]
    exact fun hmem => (Kind.isPlain_of_mem_names kind hmodel _ hmem).2.2.2.2.2.1 rfl
  have hkeys : Entries.keys (Entries.put name v members) = kind.names :=
    (Entries.keys_put_of_mem (hh.keys_eq ▸ hname) v).trans hh.keys_eq
  have hput : Gives (putField h name v) w () (w.write h (Entries.put name v members)) :=
    gives_bind (hh.gives_put name v) (hh.write_self hkeys).gives_callable_add
  have hrecord : Gives (assignToRecord h name v) w () (w.write h (Entries.put name v members)) := by
    refine gives_bind (gives_get w) ?_
    simp only [hsetters, hh.kind_eq, hfield]
    exact gives_bind (gives_pure true w) (by simpa using hput)
  rw [assignMember, assignTo, hh.kind_eq]
  cases kind with
  | linker => cases hmodel
  | dictionary => cases hmodel
  | secret => cases hmodel
  | _ => exact hrecord

theorem gives_fillZero (default : Int) {n : Int}
    (hn : Entries.get? field.inner members = some (.int n)) :
    Gives (fillZero (.live h) field default) w ()
      (w.write h (Entries.put field.inner (.int (Defaults.orNumber default n)) members)) := by
  have hname := hh.mem_names hn
  refine gives_bind (hh.gives_readMember hmodel hn) ?_
  by_cases hzero : n = 0
  · rw [Defaults.orNumber, if_pos hzero, if_pos (by simp [Value.isZero, Value.number?, hzero])]
    exact hh.gives_assignMember hmodel hname _
  · rw [Defaults.orNumber, if_neg hzero, if_neg (by simp [Value.isZero, Value.number?, hzero]),
      hh.write_put hn]
    exact gives_pure () w

theorem gives_fillEmpty (default : Text) {t : Text}
    (ht : Entries.get? field.inner members = some (.text t)) :
    Gives (fillEmpty (.live h) field default) w ()
      (w.write h (Entries.put field.inner (.text (Defaults.orText default t)) members)) := by
  have hname := hh.mem_names ht
  have htrue : w.isTrue (.text t) = .ok !t.isEmpty := by
    rcases t with _ | ⟨c, t⟩ <;> rfl
  refine gives_bind (hh.gives_readMember hmodel ht) (gives_bind (gives_get w) ?_)
  refine gives_bind (gives_used htrue w) ?_
  by_cases hempty : t.isEmpty = true
  · rw [Defaults.orText, if_pos hempty, hempty]
    exact hh.gives_assignMember hmodel hname _
  · rw [Defaults.orText, if_neg hempty, hh.write_put ht, Bool.eq_false_of_not_eq_true hempty]
    exact gives_pure () w

end Fields

end Has

end Workspace

end SearchConfig
