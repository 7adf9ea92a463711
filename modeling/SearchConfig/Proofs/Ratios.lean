import Mathlib.Algebra.Order.Floor.Semifield
import Mathlib.Data.Int.Log
import Mathlib.Data.Rat.Floor
import Mathlib.Tactic.FieldSimp
import Mathlib.Tactic.Linarith
import Mathlib.Tactic.Positivity
import Mathlib.Tactic.Ring
import SearchConfig.Decimal.Binary64

/-!
# Quotients as rational numbers

What is done with a quotient depends on its value alone: dividing it by a power changes the value so
(`value_shift`), its logarithm is that of the value (`floorLog2_eq`), and it is rounded to the
natural number nearest to the value, which is only one (`isNearest_roundEven`, `IsNearest.unique`).
-/

namespace SearchConfig

/-- Is a natural number nearest to a value, and even if another one is as near? -/
def IsNearest (q : ℚ) (n : ℕ) : Prop := |q - n| ≤ 1 / 2 ∧ (|q - n| = 1 / 2 → n % 2 = 0)

namespace IsNearest

variable {q : ℚ} {m n : ℕ}

theorem natCast (n : ℕ) : IsNearest n n := by
  rw [IsNearest, sub_self, abs_zero]
  exact ⟨by norm_num, fun h => absurd h (by norm_num)⟩

theorem of_lt_half {part : ℚ} (hnonneg : 0 ≤ part) (h : part < 1 / 2) : IsNearest (n + part) n := by
  rw [IsNearest, add_sub_cancel_left, abs_of_nonneg hnonneg]
  exact ⟨h.le, fun heq => absurd heq h.ne⟩

theorem of_half_lt {part : ℚ} (h : 1 / 2 < part) (hle : part ≤ 1) :
    IsNearest (n + part) (n + 1) := by
  have hdiff : (n : ℚ) + part - (n + 1 : ℕ) = -(1 - part) := by
    push_cast
    ring
  rw [IsNearest, hdiff, abs_neg, abs_of_nonneg (by linarith)]
  exact ⟨by linarith, fun heq => by linarith⟩

theorem of_half : IsNearest (n + 1 / 2) (n + n % 2) := by
  rcases Nat.mod_two_eq_zero_or_one n with heven | hodd
  · rw [heven, Nat.add_zero, IsNearest, add_sub_cancel_left]
    exact ⟨by norm_num, fun _ => heven⟩
  · have hdiff : (n : ℚ) + 1 / 2 - (n + n % 2 : ℕ) = -(1 / 2) := by
      rw [hodd]
      push_cast
      ring
    rw [IsNearest, hdiff]
    exact ⟨by norm_num, fun _ => by omega⟩

theorem le_of_le (h : IsNearest q n) (hq : (m : ℚ) ≤ q) : m ≤ n := by
  have hhigh := (abs_le.1 h.1).2
  have hlt : (m : ℚ) < n + 1 := by linarith
  exact Nat.lt_succ_iff.1 (by exact_mod_cast hlt)

theorem le_of_ge (h : IsNearest q n) (hq : q ≤ m) : n ≤ m := by
  have hlow := (abs_le.1 h.1).1
  have hlt : (n : ℚ) < m + 1 := by linarith
  exact Nat.lt_succ_iff.1 (by exact_mod_cast hlt)

/-- Of two different numbers that are as near as can be, both are even and one follows the other. -/
theorem not_lt (hm : IsNearest q m) (hn : IsNearest q n) : ¬ m < n := by
  intro hlt
  have hstep : (m : ℚ) + 1 ≤ n := by exact_mod_cast hlt
  have hhigh := (abs_le.1 hm.1).2
  have hlow := (abs_le.1 hn.1).1
  have hnext : (n : ℚ) = m + 1 := by linarith
  have hhalf : q - m = 1 / 2 := by linarith
  have hevenm := hm.2 (by rw [hhalf]; norm_num)
  have hevenn := hn.2 (by rw [show q - n = -(1 / 2) by linarith]; norm_num)
  have hsucc : n = m + 1 := by exact_mod_cast hnext
  omega

theorem unique (hm : IsNearest q m) (hn : IsNearest q n) : m = n :=
  Nat.le_antisymm (Nat.not_lt.1 (not_lt hn hm)) (Nat.not_lt.1 (not_lt hm hn))

end IsNearest

namespace Ratio

/-- The rational number that a quotient stands for. -/
def value (r : Ratio) : ℚ := r.numerator / r.denominator

variable {r s : Ratio}

theorem value_shift {base : ℕ} (hbase : 0 < base) (r : Ratio) (k : ℤ) :
    (r.shift base k).value = r.value / (base : ℚ) ^ k := by
  have hne : (base : ℚ) ≠ 0 := by exact_mod_cast hbase.ne'
  rcases k with k | k
  · simp only [shift, value, Nat.pow_eq, Nat.cast_mul, Nat.cast_pow, Int.ofNat_eq_natCast,
      zpow_natCast]
    rw [div_div]
  · simp only [shift, value, Nat.pow_eq, Nat.cast_mul, Nat.cast_pow, zpow_negSucc]
    rw [div_inv_eq_mul, div_mul_eq_mul_div]

theorem denominator_shift_pos {base : ℕ} (hbase : 0 < base) (hr : 0 < r.denominator) (k : ℤ) :
    0 < (r.shift base k).denominator := by
  rcases k with k | k
  · exact Nat.mul_pos hr (Nat.pow_pos hbase)
  · exact hr

theorem value_eq_zero_iff (hr : 0 < r.denominator) : r.value = 0 ↔ r.numerator = 0 := by
  have hne : (r.denominator : ℚ) ≠ 0 := by exact_mod_cast hr.ne'
  rw [value, div_eq_zero_iff, Nat.cast_eq_zero, or_iff_left hne]

theorem value_pos (hr : 0 < r.denominator) (hne : r.numerator ≠ 0) : 0 < r.value := by
  have hnum := Nat.pos_of_ne_zero hne
  unfold value
  positivity

/-- The whole part and the remainder make up the value. -/
theorem value_eq (hr : 0 < r.denominator) :
    r.value = r.floor + (r.numerator % r.denominator : ℕ) / (r.denominator : ℚ) := by
  have hne : (r.denominator : ℚ) ≠ 0 := by exact_mod_cast hr.ne'
  have hparts : (r.numerator : ℚ)
      = r.denominator * r.floor + (r.numerator % r.denominator : ℕ) := by
    exact_mod_cast (Nat.div_add_mod r.numerator r.denominator).symm
  rw [value, hparts]
  field_simp

/-- A quotient is rounded to the natural number nearest to its value. -/
theorem isNearest_roundEven (hr : 0 < r.denominator) : IsNearest r.value r.roundEven := by
  have hpos : (0 : ℚ) < r.denominator := by exact_mod_cast hr
  have hlt : ((r.numerator % r.denominator : ℕ) : ℚ) < r.denominator := by
    exact_mod_cast Nat.mod_lt _ hr
  rw [value_eq hr]
  unfold roundEven
  simp only []
  generalize r.numerator % r.denominator = remainder at *
  split
  · rename_i h
    have h : 2 * (remainder : ℚ) < r.denominator := by exact_mod_cast h
    refine .of_lt_half (by positivity) ?_
    rw [div_lt_div_iff₀ hpos two_pos]
    linarith
  split
  · rename_i h
    have h : (r.denominator : ℚ) < 2 * remainder := by exact_mod_cast h
    refine .of_half_lt ?_ ((div_le_one hpos).2 hlt.le)
    rw [div_lt_div_iff₀ two_pos hpos]
    linarith
  · rename_i hge hle
    have htie : 2 * (remainder : ℚ) = r.denominator := by
      exact_mod_cast Nat.le_antisymm (Nat.not_lt.1 hle) (Nat.not_lt.1 hge)
    have hhalf : (remainder : ℚ) / r.denominator = 1 / 2 := by
      rw [div_eq_div_iff hpos.ne' two_ne_zero]
      linarith
    rw [hhalf]
    exact .of_half

theorem roundEven_congr (hr : 0 < r.denominator) (hs : 0 < s.denominator)
    (h : r.value = s.value) : r.roundEven = s.roundEven :=
  (isNearest_roundEven hr).unique (h ▸ isNearest_roundEven hs)

theorem denominator_le_numerator_iff {base : ℕ} (hbase : 0 < base) (hr : 0 < r.denominator)
    (k : ℤ) :
    (r.shift base k).denominator ≤ (r.shift base k).numerator ↔ (base : ℚ) ^ k ≤ r.value := by
  have hscaled : (0 : ℚ) < (r.shift base k).denominator := by
    exact_mod_cast denominator_shift_pos hbase hr k
  have hpow : (0 : ℚ) < (base : ℚ) ^ k := zpow_pos (by exact_mod_cast hbase) k
  rw [← one_le_div hpow, ← value_shift hbase, value, one_le_div hscaled, Nat.cast_le]

theorem log2_bracket {n : ℕ} (h : n ≠ 0) :
    (2 : ℚ) ^ (n.log2 : ℤ) ≤ n ∧ (n : ℚ) < 2 ^ ((n.log2 : ℤ) + 1) := by
  constructor
  · rw [zpow_natCast]
    exact_mod_cast Nat.log2_self_le h
  · exact_mod_cast Nat.lt_log2_self (n := n)

/-- The difference of the logarithms of its parts is the logarithm of a quotient or one more. -/
theorem value_bracket (hr : 0 < r.denominator) (hne : r.numerator ≠ 0) {k : ℤ}
    (hk : (r.numerator.log2 : ℤ) - (r.denominator.log2 : ℤ) = k) :
    (2 : ℚ) ^ (k - 1) ≤ r.value ∧ r.value < 2 ^ (k + 1) := by
  have hd : (0 : ℚ) < r.denominator := by exact_mod_cast hr
  obtain ⟨hnumLow, hnumHigh⟩ := log2_bracket hne
  obtain ⟨hdenLow, hdenHigh⟩ := log2_bracket hr.ne'
  rw [value]
  constructor
  · rw [le_div_iff₀ hd]
    refine le_trans ?_ hnumLow
    rw [show (r.numerator.log2 : ℤ) = k - 1 + ((r.denominator.log2 : ℤ) + 1) by omega,
      zpow_add₀ (by norm_num : (2 : ℚ) ≠ 0)]
    exact mul_le_mul_of_nonneg_left hdenHigh.le (zpow_nonneg (by norm_num) _)
  · rw [div_lt_iff₀ hd]
    refine hnumHigh.trans_le ?_
    rw [show (r.numerator.log2 : ℤ) + 1 = k + 1 + (r.denominator.log2 : ℤ) by omega,
      zpow_add₀ (by norm_num : (2 : ℚ) ≠ 0)]
    exact mul_le_mul_of_nonneg_left hdenLow (zpow_nonneg (by norm_num) _)

/-- The binary logarithm of a quotient that is not zero. -/
theorem floorLog2_eq (hr : 0 < r.denominator) (hne : r.numerator ≠ 0) :
    r.floorLog2 = Int.log 2 r.value := by
  have hpos := value_pos hr hne
  unfold floorLog2
  simp only []
  generalize hk : (r.numerator.log2 : ℤ) - (r.denominator.log2 : ℤ) = k
  obtain ⟨hlow, hhigh⟩ := value_bracket hr hne hk
  have hle := (Int.zpow_le_iff_le_log (b := 2) (by decide) hpos).1 hlow
  have hlt := (Int.lt_zpow_iff_log_lt (b := 2) (by decide) hpos).1 hhigh
  have hiff := (denominator_le_numerator_iff (by decide : 0 < 2) hr k).trans
    (Int.zpow_le_iff_le_log (by decide) hpos)
  split
  · rename_i h
    have := hiff.1 h
    omega
  · rename_i h
    have := mt hiff.2 h
    omega

end Ratio

end SearchConfig
