import Mathlib.Data.List.Sort
import SearchConfig.Model.Listing

/-!
# The order of names

Texts are totally ordered by their code points, so the repositories of a listing really stand in the
order of their names (`ConfigOf.pairwise_sortedRepos`), and putting them in order once more changes
nothing (`ConfigOf.sortedRepos_of_pairwise`).
-/

namespace SearchConfig

theorem CodePoint.value_injective : Function.Injective value := by
  intro a b h
  have hvalid : ∀ (c : Char) (offset : Fin 2048), c.toNat ≠ 0xD800 + offset := by
    intro c offset heq
    have hc := c.valid
    have hoffset := offset.isLt
    simp only [UInt32.isValidChar, Nat.isValidChar] at hc
    change c.toNat < 0xD800 ∨ 0xDFFF < c.toNat ∧ c.toNat < 0x110000 at hc
    omega
  rcases a with a | a <;> rcases b with b | b
  · exact congrArg scalar (Char.toNat_inj.1 h)
  · exact absurd h (hvalid a b)
  · exact absurd h.symm (hvalid b a)
  · simp only [value, Nat.add_left_cancel_iff] at h
    exact congrArg surrogate (Fin.ext h)

namespace Text

theorem le_cons_iff {a b : CodePoint} {s t : Text} :
    le (a :: s) (b :: t) = true ↔ a.value < b.value ∨ a = b ∧ le s t = true := by
  simp [le]

theorem le_total : ∀ s t : Text, s.le t = true ∨ t.le s = true
  | [], _ => .inl rfl
  | _ :: _, [] => .inr rfl
  | a :: s, b :: t => by
    rw [le_cons_iff, le_cons_iff]
    rcases Nat.lt_trichotomy a.value b.value with h | h | h
    · exact .inl (.inl h)
    · obtain rfl := CodePoint.value_injective h
      rcases le_total s t with hle | hle
      · exact .inl (.inr ⟨rfl, hle⟩)
      · exact .inr (.inr ⟨rfl, hle⟩)
    · exact .inr (.inl h)

theorem le_trans : ∀ {s t u : Text}, s.le t = true → t.le u = true → s.le u = true
  | [], _, _, _, _ => rfl
  | _ :: _, [], _, h, _ => by cases h
  | _ :: _, _ :: _, [], _, h => by cases h
  | a :: s, b :: t, c :: u, hst, htu => by
    rw [le_cons_iff] at hst htu ⊢
    rcases hst with hab | ⟨rfl, hst⟩ <;> rcases htu with hbc | ⟨rfl, htu⟩
    · exact .inl (hab.trans hbc)
    · exact .inl hab
    · exact .inl hbc
    · exact .inr ⟨rfl, le_trans hst htu⟩

end Text

namespace ConfigOf

variable {ρ : Type}

theorem pairwise_sortedRepos (c : ConfigOf ρ) :
    c.sortedRepos.Pairwise fun a b => a.1.le b.1 = true := by
  have htrans : ∀ a b c : Text × ρ, a.1.le b.1 = true → b.1.le c.1 = true → a.1.le c.1 = true :=
    fun _ _ _ => Text.le_trans
  have htotal : ∀ a b : Text × ρ, (a.1.le b.1 || b.1.le a.1) = true := fun a b => by
    rw [Bool.or_eq_true]
    exact Text.le_total a.1 b.1
  exact List.pairwise_mergeSort htrans htotal c.repos

theorem perm_sortedRepos (c : ConfigOf ρ) : c.sortedRepos.Perm c.repos :=
  List.mergeSort_perm c.repos _

theorem sortedRepos_of_pairwise {c : ConfigOf ρ}
    (h : c.repos.Pairwise fun a b => a.1.le b.1 = true) : c.sortedRepos = c.repos :=
  List.mergeSort_of_pairwise h

end ConfigOf

end SearchConfig
