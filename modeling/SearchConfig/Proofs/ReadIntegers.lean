import SearchConfig.Proofs.ReadBack
import SearchConfig.Proofs.Reading

/-!
# Integers that are read

What holds of the values that tokens hold holds of all values inside a value that is read
(`each_of_ofBytes?`). No integer with more digits than the limit is a token, so a value that is read
has none (`integersWithinLimit_of_ofBytes?`).
-/

namespace SearchConfig.Json

section Each

variable {p : Json → Prop}

theorem eachItem_iff (items : List Json) : EachItem p items ↔ ∀ v ∈ items, Each p v := by
  induction items with
  | nil => simp [EachItem]
  | cons item items ih => simp [EachItem, ih]

theorem eachEntry_iff (entries : List (List Char × Json)) :
    EachEntry p entries ↔ ∀ entry ∈ entries, Each p entry.2 := by
  induction entries with
  | nil => simp [EachEntry]
  | cons entry entries ih => simp [EachEntry, ih]

theorem each_array {items : List Json} (h : ∀ v ∈ items, Each p v) : Each p (array items) := by
  rw [Each, eachItem_iff]
  exact h

theorem each_object {entries : List (List Char × Json)} (h : ∀ entry ∈ entries, Each p entry.2) :
    Each p (object entries) := by
  rw [Each, eachEntry_iff]
  exact h

/-- What holds of the values that tokens hold holds of all values inside a value that is read. -/
theorem each_of_ofBytes? (hp : ∀ v, Token.IsHeld v → Each p v) {bytes : ByteArray} {v : Json}
    (h : ofBytes? bytes = some v) : Each p v := by
  have hpasses : Passes maxNesting fun _ v => Each p v :=
    { held := fun _ hv => hp _ hv
      array := fun _ hitems => each_array hitems
      object := fun _ hentries => each_object hentries }
  exact holds_of_ofBytes? hpasses h

end Each

/-- Has an integer no more digits than can be read and written? -/
def WithinLimit : Json → Prop
  | int n => Digits.isWritable n = true
  | _ => True

/-- The integers of a value that is read are within the limit. -/
theorem integersWithinLimit_of_ofBytes? {bytes : ByteArray} {v : Json}
    (h : ofBytes? bytes = some v) : Each WithinLimit v := by
  refine each_of_ofBytes? (fun w hw => ?_) h
  cases hw with
  | int hn => exact hn
  | _ => simp only [Each, WithinLimit]

end SearchConfig.Json
