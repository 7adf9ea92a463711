import SearchConfig.Proofs.Decimals
import SearchConfig.Proofs.DistinctKeys
import SearchConfig.Proofs.ReadIntegers

/-!
# Canonical forms

Every number that is read is in its one form, and such a number reads back from its text
(`next?_display`). A value that is read is nested no deeper than may be read. Both stay so when the
entries of objects are put together, so the canonical form of a value that is read reads back
(`ofBytes?_canonical`), and what is captured of a value loses nothing but repeated keys.
-/

namespace SearchConfig

theorem Decimal.exponent_trim {d : Decimal} (h : d.trim.digits = 0) : d.trim.exponent = 0 := by
  unfold trim at h ⊢
  simp only [] at h ⊢
  split
  · rfl
  · rename_i hne
    rw [if_neg hne] at h
    have hdvd := Digits.pow_zerosAtEnd_dvd hne
    have hzero : d.digits / 10 ^ Digits.zerosAtEnd d.digits = 0 := h
    rw [Nat.div_eq_zero_iff_lt (by simp)] at hzero
    exact absurd (Nat.le_of_dvd (Nat.pos_of_ne_zero hne) hdvd) (Nat.not_le.2 hzero)

theorem Binary64.exponent_shortest {significand : ℕ} {exponent : ℤ}
    (h : (shortest significand exponent).digits = 0) :
    (shortest significand exponent).exponent = 0 := by
  unfold shortest at h ⊢
  split
  · rfl
  · rename_i hne
    rw [if_neg hne] at h
    exact Decimal.exponent_trim h

namespace Json

namespace Token

/-- A number in its one form reads back. -/
theorem next?_display {x : Binary64} (hx : x.IsCanonical) {rest : List Char} (hrest : Ends rest) :
    next? (x.display .words ++ rest) = some (literal (.float x), rest) := by
  rcases x with _ | negative | ⟨negative, significand, exponent⟩
  · rfl
  · rcases negative <;> rfl
  · generalize hd : Binary64.shortest significand exponent = d
    have hback := Binary64.ofDecimal_shortest hx
    have hzero : d.digits = 0 → d.exponent = 0 := by
      rw [← hd]
      exact Binary64.exponent_shortest
    rw [hd] at hback
    simp only [Binary64.display, hd, List.append_assoc]
    split
    · rename_i hpower
      have hspells := spells_positional hzero (by unfold Digits.count; omega)
      obtain ⟨d', hvalue, hread⟩ := hspells negative rest hrest
      rw [Binary64.ofDecimal_congr hvalue, hback] at hread
      rw [sub_add_cancel]
      exact next?_of_number? hread
    · have hspells := spells_scientific Binary64.Spelling.words.exponentWidth d.digits d.exponent
      obtain ⟨d', hvalue, hread⟩ := hspells negative rest hrest
      rw [Binary64.ofDecimal_congr hvalue, hback] at hread
      exact next?_of_number? hread

theorem IsHeld.readsBack {v : Json} (h : IsHeld v) : Each ReadsBack v := by
  cases h with
  | nan => exact fun rest hrest => next?_display (x := .nan) trivial hrest
  | infinity negative =>
    exact fun rest hrest => next?_display (x := .infinity negative) trivial hrest
  | int hn => exact hn
  | decimal negative d =>
    exact fun rest hrest => next?_display (Binary64.isCanonical_ofDecimal negative d) hrest
  | _ => simp only [Each, ReadsBack]

theorem IsHeld.depth_eq {v : Json} (h : IsHeld v) : depth v = 0 := by cases h <;> rfl

theorem IsHeld.collapse_eq {v : Json} (h : IsHeld v) : v.collapse = v := by cases h <;> rfl

end Token

theorem depth_array_le {items : List Json} {n : ℕ} :
    depth (array items) ≤ n ↔ ∀ v ∈ items, depth v + 1 ≤ n := by
  rw [depth]
  induction items with
  | nil => simp [depthOfItems]
  | cons item items ih => simp [depthOfItems, ih]

theorem depth_object_le {entries : List (List Char × Json)} {n : ℕ} :
    depth (object entries) ≤ n ↔ ∀ entry ∈ entries, depth entry.2 + 1 ≤ n := by
  rw [depth]
  induction entries with
  | nil => simp [depthOfEntries]
  | cons entry entries ih => simp [depthOfEntries, ih]

theorem collapseItems_eq (items : List Json) : collapseItems items = items.map collapse := by
  induction items with
  | nil => rfl
  | cons item items ih => rw [collapseItems, ih, List.map_cons]

section Passes

variable {nesting : ℕ}

theorem passes_readsBack : Passes nesting fun _ v => Each ReadsBack v where
  held _ hv := hv.readsBack
  array _ hitems := each_array hitems
  object _ hentries := each_object hentries

theorem passes_depth : Passes nesting fun level v => level + depth v ≤ nesting where
  held hlevel hv := by rwa [hv.depth_eq]
  array {level} _ hlevel hitems := by
    have hdepth := depth_array_le.2 fun v hv =>
      show depth v + 1 ≤ nesting - level by have := hitems v hv; omega
    omega
  object {level} _ hlevel hentries := by
    have hdepth := depth_object_le.2 fun entry hentry =>
      show depth entry.2 + 1 ≤ nesting - level by have := hentries entry hentry; omega
    omega

/-- What passes to containers also passes to them when their entries are put together. -/
theorem Passes.collapse {p : ℕ → Json → Prop} (hp : Passes nesting p) :
    Passes nesting fun level v => p level v.collapse where
  held hlevel hv := by
    rw [hv.collapse_eq]
    exact hp.held hlevel hv
  array hlevel hitems := by
    rw [Json.collapse, collapseItems_eq]
    refine hp.array hlevel fun v hv => ?_
    obtain ⟨item, hitem, rfl⟩ := List.mem_map.1 hv
    exact hitems item hitem
  object hlevel hentries := by
    rw [Json.collapse, collapseEntries_eq]
    refine hp.object hlevel fun entry hentry => ?_
    obtain ⟨e, he, rfl⟩ := List.mem_map.1 (Entries.mem_of_mem_collapse hentry)
    exact hentries e he

end Passes

/-- The canonical form of a value that is read reads back. -/
theorem ofBytes?_canonical {bytes : ByteArray} {v : Json} (h : ofBytes? bytes = some v) :
    ofBytes? v.collapse.toBytes = some v.collapse := by
  have hdepth := holds_of_ofBytes? passes_depth.collapse h
  rw [Nat.zero_add] at hdepth
  exact ofBytes?_toBytes (holds_of_ofBytes? passes_readsBack.collapse h) hdepth

end Json

theorem Decoded.ofBytes_of_read {β : Type} {bytes : ByteArray} {v : Json}
    (h : Json.ofBytes? bytes = some v) (decode : Json → Decoded β) :
    Decoded.ofBytes decode bytes = decode v := by
  rw [Decoded.ofBytes, h]

theorem Schema.secret_of_ne_null {v : Json} (h : v ≠ .null) :
    secret v = .accepted (Secret.ofJson v) := by
  cases v with
  | null => exact absurd rfl h
  | _ => rfl

/-- What is captured of a text is a text of the same value, and the texts of a value are captured
alike. -/
theorem Secret.capture_lossless {a b : ByteArray} {v w : Json} (hv : Json.ofBytes? a = some v)
    (hvnull : v ≠ .null) (hw : Json.ofBytes? b = some w) (hwnull : w ≠ .null) :
    ∃ s t : Secret, Decoded.ofBytes Schema.secret a = .accepted s
      ∧ Decoded.ofBytes Schema.secret b = .accepted t
      ∧ Json.ofBytes? s.payload = some v.collapse ∧ v.collapse.HasDistinctKeys
      ∧ Decoded.ofBytes Schema.secret s.payload = .accepted s
      ∧ (s.payload = t.payload ↔ v.collapse = w.collapse) := by
  have hvback := Json.ofBytes?_canonical hv
  have hwback := Json.ofBytes?_canonical hw
  have hcaptured := Schema.secret_of_ne_null hvnull
  refine ⟨.ofJson v, .ofJson w, ?_, ?_, hvback, Json.hasDistinctKeys_collapse v, ?_, ?_⟩
  · rw [Decoded.ofBytes_of_read hv, hcaptured]
  · rw [Decoded.ofBytes_of_read hw, Schema.secret_of_ne_null hwnull]
  · rw [Secret.ofJson, Decoded.ofBytes_of_read hvback, secret_collapse, hcaptured]
    rfl
  · constructor
    · intro hpayload
      have hsame : Json.ofBytes? v.collapse.toBytes = Json.ofBytes? w.collapse.toBytes :=
        congrArg Json.ofBytes? hpayload
      rw [hvback, hwback] at hsame
      exact Option.some.inj hsame
    · intro hsame
      exact congrArg Json.toBytes hsame

/-- Of a key that is repeated the last value is captured, here the negative zero. -/
theorem Secret.capture_lossless_repeated :
    ∃ s t : Secret,
      Decoded.ofBytes Schema.secret (Json.object [(['k'], .int 1),
        (['k'], .float (.finite true 0 (-1074)))]).toBytes = .accepted s
      ∧ Decoded.ofBytes Schema.secret
        (Json.object [(['k'], .float (.finite true 0 (-1074)))]).toBytes = .accepted t
      ∧ s.payload = t.payload
      ∧ Json.ofBytes? s.payload = some (.object [(['k'], .float (.finite true 0 (-1074)))]) := by
  have hcanonical : (Binary64.finite true 0 (-1074)).IsCanonical :=
    ⟨by decide, by decide, by decide, .inr rfl⟩
  have hzero : Json.ReadsBack (.float (.finite true 0 (-1074))) := fun rest hrest =>
    Json.Token.next?_display hcanonical hrest
  have hone : Json.ReadsBack (.int 1) := by simp [Json.ReadsBack, Digits.isWritable]; decide
  have hv : Json.ofBytes? (Json.object [(['k'], .int 1),
      (['k'], .float (.finite true 0 (-1074)))]).toBytes
      = some (.object [(['k'], .int 1), (['k'], .float (.finite true 0 (-1074)))]) := by
    refine Json.ofBytes?_toBytes ?_ (by decide)
    simp only [Json.Each, Json.EachEntry, hone, hzero, and_self]
  have hw : Json.ofBytes? (Json.object [(['k'], .float (.finite true 0 (-1074)))]).toBytes
      = some (.object [(['k'], .float (.finite true 0 (-1074)))]) := by
    refine Json.ofBytes?_toBytes ?_ (by decide)
    simp only [Json.Each, Json.EachEntry, hzero, and_self]
  obtain ⟨s, t, hs, ht, hread, -, -, hiff⟩ := capture_lossless hv (by simp) hw (by simp)
  exact ⟨s, t, hs, ht, hiff.2 rfl, hread⟩

end SearchConfig
