import SearchConfig.Proofs.Printed
import SearchConfig.Json.Reader

/-!
# What the reader keeps

A property of values and of how many containers are open around them may hold of whatever a token
holds and pass from the parts of a container to the container (`Passes`). Then a step of the reader
keeps it of everything in the containers that are open (`holds_of_step?`), so a run does
(`holds_of_run?`), and it holds of every value that is read (`holds_of_read?`).
-/

namespace SearchConfig.Json

namespace Token

/-- The value that a token holds, if it holds one. -/
def value? : Token → Option Json
  | .string s => some (.string s)
  | .literal v => some v
  | _ => none

/-- The values that tokens hold when they are read: strings, words and numbers. -/
inductive IsHeld : Json → Prop
  | string (s : List Char) : IsHeld (.string s)
  | null : IsHeld .null
  | bool (b : Bool) : IsHeld (.bool b)
  | nan : IsHeld (.float .nan)
  | infinity (negative : Bool) : IsHeld (.float (.infinity negative))
  | int {n : Int} : Digits.isWritable n = true → IsHeld (.int n)
  | decimal (negative : Bool) (d : Decimal) : IsHeld (.float (.ofDecimal negative d))

/-- Does the token hold nothing but values that are read? -/
def Holds (t : Token) : Prop := ∀ v ∈ t.value?, IsHeld v

theorem holds_of_number? {negative : Bool} {cs rest : List Char} {t : Token}
    (h : number? negative cs = some (t, rest)) : t.Holds := by
  have hnumber := h
  unfold number? at h
  split at h
  · simp at h
  · split at h
    · simp at h
    · obtain ⟨⟨f, r₁⟩, hf, h⟩ := Option.bind_eq_some_iff.1 h
      obtain ⟨⟨e, r₂⟩, he, h⟩ := Option.bind_eq_some_iff.1 h
      simp only [pure, Option.some.injEq, Prod.mk.injEq] at h
      obtain ⟨rfl, rfl⟩ := h
      unfold number at hnumber ⊢
      rintro v hv
      obtain rfl := Option.some.inj hv
      split
      · exact .int (isWritable_of_number? hnumber)
      · exact .decimal _ _

/-- The values that are held by tokens that are read. -/
theorem holds_of_next? {cs rest : List Char} {t : Token} (h : next? cs = some (t, rest)) :
    t.Holds := by
  unfold next? at h
  split at h
  case h_7 =>
    obtain ⟨⟨s, r⟩, hs, he⟩ := Option.map_eq_some_iff.1 h
    obtain ⟨rfl, rfl⟩ := Prod.mk.inj he
    rintro v hv
    obtain rfl := Option.some.inj hv
    exact .string s
  case h_14 => exact holds_of_number? h
  case h_15 => exact holds_of_number? h
  all_goals
    simp only [Option.some.injEq, Prod.mk.injEq] at h
    obtain ⟨rfl, rfl⟩ := h
    rintro v hv
    cases hv
  · exact .null
  · exact .bool true
  · exact .bool false
  · exact .nan
  · exact .infinity false
  · exact .infinity true

/-- The values held by the tokens of a text are read. -/
theorem holds_of_tokens? (cs : List Char) (ts : List Token) (h : tokens? cs = some ts) :
    ∀ t ∈ ts, t.Holds := by
  induction cs using tokens?.induct generalizing ts with
  | case1 cs hcs =>
    rw [tokens?_eq, hcs] at h
    obtain rfl := Option.some.inj h
    simp
  | case2 cs c cs' hcs hnext =>
    rw [tokens?_eq, hcs] at h
    simp [hnext] at h
  | case3 cs c cs' hcs t rest hnext ih =>
    rw [tokens?_eq, hcs] at h
    simp only [hnext, Option.bind_some, Option.map_eq_some_iff] at h
    obtain ⟨ts', hts', rfl⟩ := h
    exact List.forall_mem_cons.2 ⟨holds_of_next? hnext, ih ts' hts'⟩

end Token

/-- A property of values and of how many containers are open around them that holds of what tokens
hold and passes from the parts of a container to the container. -/
structure Passes (nesting : Nat) (p : Nat → Json → Prop) : Prop where
  held : ∀ {level : Nat} {v : Json}, level ≤ nesting → Token.IsHeld v → p level v
  array : ∀ {level : Nat} {items : List Json}, level ≤ nesting →
    (∀ v ∈ items, p (level + 1) v) → p level (.array items)
  object : ∀ {level : Nat} {entries : List (List Char × Json)}, level ≤ nesting →
    (∀ entry ∈ entries, p (level + 1) entry.2) → p level (.object entries)

namespace Frame

/-- The values that have come into an open container. -/
def parts : Frame → List Json
  | .items done => done
  | .fields done => done.map Prod.snd
  | .field done _ => done.map Prod.snd

/-- Has everything in open containers the property, and does the nesting leave room for them? -/
def Hold (nesting : Nat) (p : Nat → Json → Prop) : List Frame → Prop
  | [] => True
  | frame :: outer =>
    outer.length ≤ nesting ∧ (∀ v ∈ frame.parts, p (outer.length + 1) v) ∧ Hold nesting p outer

end Frame

def Progress.Holds (nesting : Nat) (p : Nat → Json → Prop) : Progress → Prop
  | .inside _ stack => Frame.Hold nesting p stack
  | .finished v => p 0 v

section Reader

variable {nesting : Nat} {p : Nat → Json → Prop} {t : Token} {v : Json} {stack : List Frame}
  {progress progress' : Progress}

theorem holds_of_complete? (hv : p stack.length v) (hstack : Frame.Hold nesting p stack)
    (h : complete? v stack = some progress) : progress.Holds nesting p := by
  unfold complete? at h
  split at h
  · obtain rfl := Option.some.inj h
    exact hv
  · obtain rfl := Option.some.inj h
    obtain ⟨hroom, hparts, houter⟩ := hstack
    exact ⟨hroom, List.forall_mem_cons.2 ⟨hv, hparts⟩, houter⟩
  · obtain rfl := Option.some.inj h
    obtain ⟨hroom, hparts, houter⟩ := hstack
    exact ⟨hroom, List.forall_mem_cons.2 ⟨hv, hparts⟩, houter⟩
  · simp at h

section Passes

variable (hp : Passes nesting p)

include hp

theorem holds_of_closeArray {done : List Json}
    (hstack : Frame.Hold nesting p (.items done :: stack))
    (h : complete? (array done.reverse) stack = some progress) : progress.Holds nesting p := by
  obtain ⟨hroom, hparts, houter⟩ := hstack
  exact holds_of_complete? (hp.array hroom fun v hv => hparts v (List.mem_reverse.1 hv)) houter h

theorem holds_of_closeObject {done : List (List Char × Json)}
    (hstack : Frame.Hold nesting p (.fields done :: stack))
    (h : complete? (object done.reverse) stack = some progress) : progress.Holds nesting p := by
  obtain ⟨hroom, hparts, houter⟩ := hstack
  refine holds_of_complete? (hp.object hroom fun entry hentry => ?_) houter h
  exact hparts entry.2 (List.mem_map_of_mem (List.mem_reverse.1 hentry))

theorem holds_of_beginValue? (ht : t.Holds) (hstack : Frame.Hold nesting p stack)
    (h : beginValue? nesting t stack = some progress) : progress.Holds nesting p := by
  unfold beginValue? at h
  split at h
  · simp at h
  · rename_i hroom
    rw [Nat.not_lt] at hroom
    split at h
    · obtain rfl := Option.some.inj h
      exact ⟨hroom, by simp [Frame.parts], hstack⟩
    · obtain rfl := Option.some.inj h
      exact ⟨hroom, by simp [Frame.parts], hstack⟩
    · exact holds_of_complete? (hp.held hroom (ht _ rfl)) hstack h
    · exact holds_of_complete? (hp.held hroom (ht _ rfl)) hstack h
    · simp at h

omit hp in
theorem holds_of_beginField? (hstack : Frame.Hold nesting p stack)
    (h : beginField? nesting t stack = some progress) : progress.Holds nesting p := by
  unfold beginField? at h
  split at h
  · simp at h
  split at h
  · obtain rfl := Option.some.inj h
    exact hstack
  · simp at h

/-- Taking a token keeps the property of everything in the open containers. -/
theorem holds_of_step? (ht : t.Holds) (hprogress : progress.Holds nesting p)
    (h : step? nesting t progress = some progress') : progress'.Holds nesting p := by
  unfold step? at h
  split at h
  · simp at h
  · exact holds_of_beginValue? hp ht hprogress h
  · split at h
    · exact holds_of_closeArray hp hprogress h
    · exact holds_of_beginValue? hp ht hprogress h
  · exact holds_of_beginField? hprogress h
  · split at h
    · exact holds_of_closeObject hp hprogress h
    · exact holds_of_beginField? hprogress h
  · split at h
    · obtain rfl := Option.some.inj h
      exact hprogress
    · simp at h
  · split at h
    · obtain rfl := Option.some.inj h
      exact hprogress
    · obtain rfl := Option.some.inj h
      exact hprogress
    · exact holds_of_closeArray hp hprogress h
    · exact holds_of_closeObject hp hprogress h
    · simp at h

/-- So does taking all tokens. -/
theorem holds_of_run? : ∀ (ts : List Token) (progress : Progress), (∀ t ∈ ts, t.Holds) →
    progress.Holds nesting p → run? nesting ts progress = some progress' →
    progress'.Holds nesting p
  | [], progress, _, hprogress, h => by
    obtain rfl := Option.some.inj h
    exact hprogress
  | t :: ts, progress, hts, hprogress, h => by
    rw [List.forall_mem_cons] at hts
    obtain ⟨progress₁, hstep, hrun⟩ := Option.bind_eq_some_iff.1 h
    exact holds_of_run? ts progress₁ hts.2 (holds_of_step? hp hts.1 hprogress hstep) hrun

/-- A property that passes to containers holds of every value that is read. -/
theorem holds_of_read? {cs : List Char} (h : read? nesting cs = some v) : p 0 v := by
  unfold read? at h
  split at h
  · rename_i w hw
    obtain rfl := Option.some.inj h
    obtain ⟨ts, hts, hrun⟩ := Option.bind_eq_some_iff.1 hw
    exact holds_of_run? hp ts (.inside .value []) (Token.holds_of_tokens? cs ts hts) trivial hrun
  · simp at h

end Passes

theorem holds_of_ofBytes? (hp : Passes maxNesting p) {bytes : ByteArray}
    (h : ofBytes? bytes = some v) : p 0 v := by
  obtain ⟨cs, -, hread⟩ := Option.bind_eq_some_iff.1 h
  exact holds_of_read? hp hread

end Reader

end SearchConfig.Json
