import SearchConfig.Proofs.Numerals
import SearchConfig.Proofs.Ratios

/-!
# Rounding to binary numbers

A quotient is rounded to the number nearest to its value, so numbers are their own roundings
(`ofRatio_of_value`) and whatever is rounded has the one form of a number (`isCanonical_ofRatio`).
Decimals out of range need not be expanded: what stands for them is what they would be rounded to
(`ofDecimal_eq`). So a number is read from a decimal by the value of the decimal alone
(`ofDecimal_congr`).
-/

namespace SearchConfig

theorem two_zpow_pos (k : ℤ) : (0 : ℚ) < 2 ^ k := zpow_pos (by norm_num) k

theorem ten_zpow_pos (k : ℤ) : (0 : ℚ) < 10 ^ k := zpow_pos (by norm_num) k

namespace Binary64

/-- Is the number in its one form? -/
def IsCanonical : Binary64 → Prop
  | finite _ significand exponent =>
    significand < significandLimit ∧ minExponent ≤ exponent ∧ exponent ≤ maxExponent
      ∧ (significandLimit / 2 ≤ significand ∨ exponent = minExponent)
  | _ => True

/-- The number with the given sign. -/
def signed (negative : Bool) : Binary64 → Binary64
  | nan => nan
  | infinity _ => infinity negative
  | finite _ significand exponent => finite negative significand exponent

/-- The exponent at which a value is rounded. -/
def scale (q : ℚ) : ℤ := max (Int.log 2 q - 52) minExponent

/-- The number of a rounded significand, which may have come to the limit. -/
def carried (negative : Bool) (significand : ℕ) (exponent : ℤ) : Binary64 :=
  if significand = significandLimit then
    if maxExponent < exponent + 1 then infinity negative
    else finite negative (significandLimit / 2) (exponent + 1)
  else if maxExponent < exponent then infinity negative
  else finite negative significand exponent

variable {negative : Bool} {r s : Ratio}

theorem ofRatio_zero (h : r.numerator = 0) :
    ofRatio negative r = finite negative 0 minExponent := by
  rw [ofRatio, if_pos h]

theorem ofRatio_eq (hr : 0 < r.denominator) (hne : r.numerator ≠ 0) :
    ofRatio negative r
      = carried negative (r.shift 2 (scale r.value)).roundEven (scale r.value) := by
  rw [ofRatio, if_neg hne, Ratio.floorLog2_eq hr hne, carried]
  simp only []
  rw [← scale]
  by_cases h : (r.shift 2 (scale r.value)).roundEven = significandLimit
  · rw [if_pos h, if_pos h]
  · rw [if_neg h, if_neg h]

theorem ofRatio_signed (negative : Bool) (r : Ratio) :
    ofRatio negative r = (ofRatio false r).signed negative := by
  unfold ofRatio
  split
  · rfl
  · simp only []
    split
    all_goals
      simp only []
      split <;> rfl

theorem ofRatio_congr (hr : 0 < r.denominator) (hs : 0 < s.denominator) (h : r.value = s.value) :
    ofRatio negative r = ofRatio negative s := by
  by_cases hne : r.numerator = 0
  · have hs0 : s.numerator = 0 := by
      rw [← Ratio.value_eq_zero_iff hs, ← h, Ratio.value_eq_zero_iff hr, hne]
    rw [ofRatio_zero hne, ofRatio_zero hs0]
  · have hs0 : s.numerator ≠ 0 := by
      rwa [Ne, ← Ratio.value_eq_zero_iff hs, ← h, Ratio.value_eq_zero_iff hr]
    have hround :
        (r.shift 2 (scale s.value)).roundEven = (s.shift 2 (scale s.value)).roundEven := by
      refine Ratio.roundEven_congr (Ratio.denominator_shift_pos (by decide) hr _)
        (Ratio.denominator_shift_pos (by decide) hs _) ?_
      rw [Ratio.value_shift (by decide), Ratio.value_shift (by decide), h]
    rw [ofRatio_eq hr hne, ofRatio_eq hs hs0, h, hround]

section Rounded

variable (hr : 0 < r.denominator) (hne : r.numerator ≠ 0)

theorem value_shift_two (r : Ratio) (k : ℤ) : (r.shift 2 k).value = r.value / 2 ^ k :=
  Ratio.value_shift (by decide) r k

include hr

theorem isNearest_shift (k : ℤ) : IsNearest (r.value / 2 ^ k) (r.shift 2 k).roundEven := by
  rw [← value_shift_two]
  exact Ratio.isNearest_roundEven (Ratio.denominator_shift_pos (by decide) hr k)

include hne

/-- At its exponent a value is below the limit of significands. -/
theorem roundEven_le_limit : (r.shift 2 (scale r.value)).roundEven ≤ significandLimit := by
  refine (isNearest_shift hr _).le_of_ge ?_
  have hpos := Ratio.value_pos hr hne
  have hlog := Int.lt_zpow_succ_log_self (b := 2) (by decide) r.value
  have hscale : Int.log 2 r.value - 52 ≤ scale r.value := le_max_left _ _
  rw [div_le_iff₀ (two_zpow_pos _)]
  have hlimit : (significandLimit : ℚ) = 2 ^ (53 : ℤ) := by norm_num [significandLimit]
  rw [hlimit, ← zpow_add₀ (by norm_num)]
  exact hlog.le.trans (zpow_le_zpow_right₀ (by norm_num) (by omega))

/-- Above the least exponent it is at least half of the limit. -/
theorem half_le_roundEven (h : scale r.value ≠ minExponent) :
    significandLimit / 2 ≤ (r.shift 2 (scale r.value)).roundEven := by
  refine (isNearest_shift hr _).le_of_le ?_
  have hlog := Int.zpow_log_le_self (b := 2) (by decide) (Ratio.value_pos hr hne)
  have hscale : scale r.value = Int.log 2 r.value - 52 := by
    unfold scale at h ⊢
    omega
  have hlimit : ((significandLimit / 2 : ℕ) : ℚ) = 2 ^ (52 : ℤ) := by norm_num [significandLimit]
  rw [le_div_iff₀ (two_zpow_pos _), hscale, hlimit, ← zpow_add₀ (by norm_num)]
  rwa [show (52 : ℤ) + (Int.log 2 r.value - 52) = Int.log 2 r.value by omega]

end Rounded

theorem isCanonical_carried {significand : ℕ} {exponent : ℤ}
    (hlimit : significand ≤ significandLimit) (hmin : minExponent ≤ exponent)
    (hform : exponent ≠ minExponent → significandLimit / 2 ≤ significand) :
    (carried negative significand exponent).IsCanonical := by
  have hhalf : significandLimit / 2 < significandLimit := by decide
  unfold carried
  split
  · split
    · trivial
    · exact ⟨hhalf, by omega, by omega, .inl le_rfl⟩
  · split
    · trivial
    · refine ⟨by omega, hmin, by omega, ?_⟩
      by_cases h : exponent = minExponent
      · exact .inr h
      · exact .inl (hform h)

theorem isCanonical_ofRatio (negative : Bool) (hr : 0 < r.denominator) :
    (ofRatio negative r).IsCanonical := by
  by_cases hne : r.numerator = 0
  · rw [ofRatio_zero hne]
    exact ⟨by decide, le_rfl, by decide, .inr rfl⟩
  · rw [ofRatio_eq hr hne]
    exact isCanonical_carried (roundEven_le_limit hr hne) (le_max_right _ _)
      (half_le_roundEven hr hne)

/-- The exponent of a number is the one at which its value is rounded. -/
theorem scale_of_canonical {significand : ℕ} {exponent : ℤ} (hpos : 0 < significand)
    (h : (finite negative significand exponent).IsCanonical) :
    scale (significand * 2 ^ exponent) = exponent := by
  obtain ⟨hlimit, hmin, -, hform⟩ := h
  have hvalue : (0 : ℚ) < significand * 2 ^ exponent :=
    mul_pos (by exact_mod_cast hpos) (two_zpow_pos _)
  have hhigh : (significand : ℚ) * 2 ^ exponent < 2 ^ (exponent + 53) := by
    have hlt : (significand : ℚ) < 2 ^ (53 : ℤ) := by
      rw [show (2 : ℚ) ^ (53 : ℤ) = significandLimit by norm_num [significandLimit]]
      exact_mod_cast hlimit
    rw [add_comm, zpow_add₀ (by norm_num)]
    exact mul_lt_mul_of_pos_right hlt (two_zpow_pos _)
  have hlog := (Int.lt_zpow_iff_log_lt (b := 2) (by decide) hvalue).1 hhigh
  rcases hform with hform | rfl
  · have hlow : (2 : ℚ) ^ (exponent + 52) ≤ significand * 2 ^ exponent := by
      have hle : (2 : ℚ) ^ (52 : ℤ) ≤ significand := by
        rw [show (2 : ℚ) ^ (52 : ℤ) = (significandLimit / 2 : ℕ) by norm_num [significandLimit]]
        exact_mod_cast hform
      rw [add_comm, zpow_add₀ (by norm_num)]
      exact mul_le_mul_of_nonneg_right hle (two_zpow_pos _).le
    have hle := (Int.zpow_le_iff_le_log (b := 2) (by decide) hvalue).1 hlow
    unfold scale
    omega
  · unfold scale
    omega

/-- A number is its own rounding. -/
theorem ofRatio_of_value {significand : ℕ} {exponent : ℤ} (hr : 0 < r.denominator)
    (hvalue : r.value = significand * 2 ^ exponent)
    (h : (finite negative significand exponent).IsCanonical) :
    ofRatio negative r = finite negative significand exponent := by
  rcases Nat.eq_zero_or_pos significand with rfl | hpos
  · have hzero : r.numerator = 0 := by
      rw [← Ratio.value_eq_zero_iff hr, hvalue, Nat.cast_zero, zero_mul]
    have hexponent : exponent = minExponent := h.2.2.2.resolve_left (by decide)
    rw [ofRatio_zero hzero, hexponent]
  · have hne : r.numerator ≠ 0 := by
      intro hzero
      rw [← Ratio.value_eq_zero_iff hr, hvalue] at hzero
      have hsignificand : (significand : ℚ) ≠ 0 := by exact_mod_cast hpos.ne'
      exact (mul_ne_zero hsignificand (two_zpow_pos exponent).ne') hzero
    have hnearest := isNearest_shift hr exponent
    rw [hvalue, mul_div_cancel_right₀ _ (two_zpow_pos exponent).ne'] at hnearest
    rw [ofRatio_eq hr hne, hvalue, scale_of_canonical hpos h,
      hnearest.unique (IsNearest.natCast significand), carried, if_neg h.1.ne,
      if_neg (not_lt.2 h.2.2.1)]

/-- Values from `2 ^ 1024` on are rounded to the infinity. -/
theorem ofRatio_of_large (hr : 0 < r.denominator) (h : (2 : ℚ) ^ (1024 : ℤ) ≤ r.value) :
    ofRatio negative r = infinity negative := by
  have hpos : 0 < r.value := (two_zpow_pos _).trans_le h
  have hne : r.numerator ≠ 0 := by rw [Ne, ← Ratio.value_eq_zero_iff hr]; exact hpos.ne'
  have hlog := (Int.zpow_le_iff_le_log (b := 2) (by decide) hpos).1 h
  have hscale : maxExponent < scale r.value := by
    unfold scale maxExponent
    omega
  have hnext : maxExponent < scale r.value + 1 := by omega
  rw [ofRatio_eq hr hne, carried, if_pos hscale, if_pos hnext, ite_self]

/-- Values below `2 ^ (-1076)` are rounded to zero. -/
theorem ofRatio_of_small (hr : 0 < r.denominator) (h : r.value < (2 : ℚ) ^ (-1076 : ℤ)) :
    ofRatio negative r = finite negative 0 minExponent := by
  by_cases hne : r.numerator = 0
  · exact ofRatio_zero hne
  · have hpos := Ratio.value_pos hr hne
    have hlog := (Int.lt_zpow_iff_log_lt (b := 2) (by decide) hpos).1 h
    have hscale : scale r.value = minExponent := by
      unfold scale minExponent
      omega
    -- At the least exponent the value is below a quarter, and so nearest to zero.
    have hquarter : r.value / 2 ^ minExponent < 1 / 4 := by
      rw [div_lt_iff₀ (two_zpow_pos _)]
      refine h.trans_eq ?_
      rw [show (-1076 : ℤ) = -2 + minExponent by rfl, zpow_add₀ (by norm_num)]
      norm_num
    have hnearest : IsNearest (r.value / 2 ^ minExponent) 0 := by
      have hnonneg : 0 ≤ r.value / 2 ^ minExponent := div_nonneg hpos.le (two_zpow_pos _).le
      rw [IsNearest, Nat.cast_zero, sub_zero, abs_of_nonneg hnonneg]
      exact ⟨by linarith, fun _ => rfl⟩
    rw [ofRatio_eq hr hne, hscale, (isNearest_shift hr minExponent).unique hnearest]
    rfl

end Binary64

theorem Digits.lt_pow_count (n : ℕ) : n < 10 ^ count n := by
  induction n using Nat.strongRecOn with
  | _ n ih =>
    rcases Nat.lt_or_ge n 10 with h | h
    · rwa [count_of_lt h]
    · have hdiv := ih (n / 10) (by omega)
      have hcount : count n = count (n / 10) + 1 := by
        rw [count, natural_of_le h, List.length_append, List.length_singleton, count]
      rw [hcount, Nat.pow_succ]
      omega

namespace Decimal

/-- The rational number that a decimal stands for. -/
def value (d : Decimal) : ℚ := d.digits * 10 ^ d.exponent

theorem denominator_ratio_pos (d : Decimal) : 0 < d.ratio.denominator :=
  Ratio.denominator_shift_pos (by decide) Nat.one_pos _

theorem value_ratio (d : Decimal) : d.ratio.value = d.value := by
  rw [ratio, Ratio.value_shift (by decide), value, zpow_neg, div_inv_eq_mul, Ratio.value,
    Nat.cast_one, div_one]
  rfl

theorem ten_zpow_le {k : ℤ} (h : 0 ≤ k) : (2 : ℚ) ^ (3 * k) ≤ 10 ^ k := by
  obtain ⟨n, rfl⟩ := Int.eq_ofNat_of_zero_le h
  rw [zpow_mul]
  norm_num only [zpow_natCast]
  exact pow_le_pow_left₀ (by norm_num) (by norm_num) n

end Decimal

namespace Binary64

open Decimal

variable {negative : Bool}

/-- Decimals out of range are what they would be rounded to. -/
theorem ofDecimal_eq (negative : Bool) (d : Decimal) :
    ofDecimal negative d = ofRatio negative d.ratio := by
  have hden := denominator_ratio_pos d
  unfold ofDecimal
  split
  · rename_i hzero
    have hvalue : d.ratio.value = 0 := by rw [value_ratio, value, hzero, Nat.cast_zero, zero_mul]
    rw [ofRatio_zero ((Ratio.value_eq_zero_iff hden).1 hvalue)]
  rename_i hne
  split
  · rename_i hlarge
    refine (ofRatio_of_large hden ?_).symm
    have hdigits : (1 : ℚ) ≤ d.digits := by exact_mod_cast Nat.one_le_iff_ne_zero.2 hne
    calc (2 : ℚ) ^ (1024 : ℤ) ≤ 2 ^ (3 * d.exponent) :=
          zpow_le_zpow_right₀ (by norm_num) (by omega)
      _ ≤ 10 ^ d.exponent := ten_zpow_le (by omega)
      _ ≤ d.digits * 10 ^ d.exponent := le_mul_of_one_le_left (ten_zpow_pos _).le hdigits
      _ = d.ratio.value := (value_ratio d).symm
  split
  · rename_i hsmall
    refine (ofRatio_of_small hden ?_).symm
    have hdigits : (d.digits : ℚ) < 10 ^ (Digits.count d.digits : ℤ) := by
      rw [zpow_natCast]
      exact_mod_cast Digits.lt_pow_count d.digits
    have hbound : (10 : ℚ) ^ (-400 : ℤ) ≤ 2 ^ (-1200 : ℤ) := by
      have h := ten_zpow_le (k := 400) (by norm_num)
      rw [zpow_neg, zpow_neg]
      exact inv_anti₀ (two_zpow_pos _) h
    calc d.ratio.value = d.digits * 10 ^ d.exponent := value_ratio d
      _ < 10 ^ (Digits.count d.digits : ℤ) * 10 ^ d.exponent :=
          mul_lt_mul_of_pos_right hdigits (ten_zpow_pos _)
      _ = 10 ^ (d.exponent + Digits.count d.digits) := by
          rw [← zpow_add₀ (by norm_num), add_comm]
      _ ≤ 10 ^ (-400 : ℤ) := zpow_le_zpow_right₀ (by norm_num) hsmall.le
      _ ≤ 2 ^ (-1200 : ℤ) := hbound
      _ < 2 ^ (-1076 : ℤ) := zpow_lt_zpow_right₀ (by norm_num) (by norm_num)
  · rfl

theorem isCanonical_ofDecimal (negative : Bool) (d : Decimal) :
    (ofDecimal negative d).IsCanonical := by
  rw [ofDecimal_eq]
  exact isCanonical_ofRatio negative (denominator_ratio_pos d)

theorem ofDecimal_congr {d d' : Decimal} (h : d.value = d'.value) :
    ofDecimal negative d = ofDecimal negative d' := by
  rw [ofDecimal_eq, ofDecimal_eq]
  exact ofRatio_congr (denominator_ratio_pos d) (denominator_ratio_pos d')
    (by rw [value_ratio, value_ratio, h])

theorem ofDecimal_signed (negative : Bool) (d : Decimal) :
    ofDecimal negative d = (ofDecimal false d).signed negative := by
  rw [ofDecimal_eq, ofDecimal_eq, ofRatio_signed]

/-- A number is read from the decimal of its value. -/
theorem ofDecimal_of_value {d : Decimal} {significand : ℕ} {exponent : ℤ}
    (hvalue : d.value = significand * 2 ^ exponent)
    (h : (finite negative significand exponent).IsCanonical) :
    ofDecimal negative d = finite negative significand exponent := by
  rw [ofDecimal_eq]
  exact ofRatio_of_value (denominator_ratio_pos d) ((value_ratio d).trans hvalue) h

end Binary64

end SearchConfig
