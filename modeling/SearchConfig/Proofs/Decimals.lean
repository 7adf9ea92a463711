import SearchConfig.Decimal.Shortest
import SearchConfig.Proofs.Rounding

/-!
# Numbers read back from their texts

The shortest decimal of a number reads back to it (`ofDecimal_shortest`), because each neighbour
that is taken has been read back, zeros at the end do not change the value (`value_trim`), and the
decimal written out in full has the value of the number (`value_exact`). The text of a number spells
that decimal, positionally (`spells_positional`) or with an exponent (`spells_scientific`).
-/

namespace SearchConfig

namespace Digits

/-- How many zeros stand at the end. -/
def zerosAtEnd (n : ℕ) : ℕ := ((natural n).reverse.takeWhile (· == '0')).length

theorem pow_zerosAtEnd_dvd {n : ℕ} (h : n ≠ 0) : 10 ^ zerosAtEnd n ∣ n := by
  induction n using Nat.strongRecOn with
  | _ n ih =>
    rcases Nat.lt_or_ge n 10 with hlt | hge
    · have hdigit : n.digitChar ≠ '0' := fun hzero => h (digitChar_eq_zero n hlt hzero)
      have hnone : zerosAtEnd n = 0 := by simp [zerosAtEnd, natural_of_lt hlt, hdigit]
      rw [hnone]
      exact one_dvd n
    · have hlast : zerosAtEnd n = if n % 10 = 0 then zerosAtEnd (n / 10) + 1 else 0 := by
        have hmod : n % 10 < 10 := Nat.mod_lt _ (by decide)
        rw [zerosAtEnd, natural_of_le hge, List.reverse_append, List.reverse_singleton,
          List.singleton_append, List.takeWhile_cons]
        split
        · rename_i hzero
          rw [if_pos (digitChar_eq_zero _ hmod (eq_of_beq hzero)), List.length_cons, zerosAtEnd]
        · rename_i hzero
          rw [if_neg fun heq => hzero (by rw [heq]; rfl), List.length_nil]
      rw [hlast]
      split
      · rename_i hzero
        have hdiv := ih (n / 10) (by omega) (by omega)
        have hn : n = n / 10 * 10 := by omega
        rw [hn, Nat.pow_succ, Nat.mul_div_cancel _ (by decide : 0 < 10)]
        exact Nat.mul_dvd_mul_right hdiv 10
      · exact one_dvd n

theorem value_append_zeros (ds : List Char) (zeros : ℕ) :
    value (ds ++ List.replicate zeros '0') = value ds * 10 ^ zeros := by
  induction zeros with
  | zero => simp
  | succ zeros ih =>
    rw [List.replicate_succ', ← List.append_assoc, value_append_singleton, ih, Nat.sub_self,
      Nat.pow_succ]
    ring

theorem value_zeros_append (zeros : ℕ) (ds : List Char) :
    value (List.replicate zeros '0' ++ ds) = value ds := by
  induction zeros with
  | zero => rfl
  | succ zeros ih => exact ih

theorem isDigit_of_mem_zeros_append {zeros n : ℕ} {c : Char}
    (h : c ∈ List.replicate zeros '0' ++ natural n) : c.isDigit = true := by
  rcases List.mem_append.1 h with h | h
  · rw [List.eq_of_mem_replicate h]
    rfl
  · exact isDigit_of_mem_natural h

end Digits

namespace Decimal

theorem value_zero (exponent : ℤ) : value ⟨0, exponent⟩ = 0 := by simp [value]

theorem value_mul_pow (digits zeros : ℕ) (exponent : ℤ) :
    value ⟨digits * 10 ^ zeros, exponent⟩ = value ⟨digits, exponent + zeros⟩ := by
  simp only [value, Nat.cast_mul, Nat.cast_pow, Nat.cast_ofNat]
  rw [mul_assoc, add_comm, zpow_add₀ (by norm_num), zpow_natCast]

theorem value_trim (d : Decimal) : d.trim.value = d.value := by
  obtain ⟨digits, exponent⟩ := d
  by_cases h : digits = 0
  · rw [trim, if_pos h, h, value_zero, value_zero]
  · have hparts := Nat.div_mul_cancel (Digits.pow_zerosAtEnd_dvd h)
    have htrim : trim ⟨digits, exponent⟩
        = ⟨digits / 10 ^ Digits.zerosAtEnd digits, exponent + Digits.zerosAtEnd digits⟩ := by
      rw [trim, if_neg h]
      rfl
    rw [htrim, ← value_mul_pow, hparts]

end Decimal

namespace Binary64

open Decimal

variable {negative : Bool} {significand : ℕ} {exponent : ℤ}

theorem value_exact (significand : ℕ) (exponent : ℤ) :
    (exact significand exponent).value = significand * 2 ^ exponent := by
  rcases exponent with k | k
  · simp [exact, value]
  · have hten : (10 : ℚ) ^ (k + 1) = 2 ^ (k + 1) * 5 ^ (k + 1) := by
      rw [← mul_pow]
      norm_num
    simp only [exact, value, Nat.pow_eq, Nat.cast_mul, Nat.cast_pow, Nat.cast_ofNat, zpow_negSucc]
    rw [hten]
    field_simp

section Positional

variable {digits : List Char}

theorem positional_of_nonpos (digits : List Char) (zeros : ℕ) :
    positional digits (-zeros) = '0' :: '.' :: (List.replicate zeros '0' ++ digits) := by
  cases zeros <;> rfl

theorem positional_succ (digits : List Char) (n : ℕ) :
    positional digits (n + 1 : ℕ)
      = digits.take (n + 1) ++ List.replicate (n + 1 - digits.length) '0' ++ '.' ::
        (if digits.length ≤ n + 1 then ['0'] else digits.drop (n + 1)) := rfl

theorem positional_of_le (h : digits ≠ []) (zeros : ℕ) :
    positional digits (digits.length + zeros)
      = digits ++ List.replicate zeros '0' ++ '.' :: ['0'] := by
  obtain ⟨n, hn⟩ := Nat.exists_eq_succ_of_ne_zero (List.length_pos_of_ne_nil h).ne'
  have hlen : digits.length ≤ n + zeros + 1 := by omega
  have hfill : n + zeros + 1 - digits.length = zeros := by omega
  rw [← Nat.cast_add, show digits.length + zeros = n + zeros + 1 by omega, positional_succ,
    List.take_of_length_le hlen, hfill, if_pos hlen]

theorem positional_of_lt {n : ℕ} (hpos : 0 < n) (h : n < digits.length) :
    positional digits n = digits.take n ++ '.' :: digits.drop n := by
  obtain ⟨n, rfl⟩ := Nat.exists_eq_succ_of_ne_zero hpos.ne'
  rw [Nat.succ_eq_add_one] at h ⊢
  rw [positional_succ, Nat.sub_eq_zero_of_le h.le, List.replicate_zero, List.append_nil,
    if_neg (not_le.2 h)]

end Positional

/-- A neighbour is taken only if it reads back. -/
theorem ofDecimal_of_neighbour? {grid : ℤ} {d : Decimal}
    (h : neighbour? significand exponent grid = some d) :
    ofDecimal false d = finite false significand exponent := by
  unfold neighbour? at h
  simp only [] at h
  split at h
  · rename_i hbelow habove
    obtain rfl := Option.some.inj h
    split
    · exact of_decide_eq_true hbelow
    · exact of_decide_eq_true habove
  · rename_i hbelow _
    obtain rfl := Option.some.inj h
    exact of_decide_eq_true hbelow
  · rename_i _ habove
    obtain rfl := Option.some.inj h
    exact of_decide_eq_true habove
  · cases h

/-- The shortest decimal of a number reads back to it. -/
theorem ofDecimal_shortest (h : (finite negative significand exponent).IsCanonical) :
    ofDecimal negative (shortest significand exponent) = finite negative significand exponent := by
  by_cases hzero : significand = 0
  · subst hzero
    rw [shortest, if_pos rfl]
    refine ofDecimal_of_value ?_ h
    rw [value_zero, Nat.cast_zero, zero_mul]
  · rw [shortest, if_neg hzero, ofDecimal_congr (value_trim _)]
    generalize hgrids : List.map _ (List.range 17) = grids
    rcases hfound : grids.findSome? (neighbour? significand exponent) with _ | d
    -- If no neighbour reads back, the number is written out in full.
    · exact ofDecimal_of_value (value_exact significand exponent) h
    · obtain ⟨grid, -, hgrid⟩ := List.exists_of_findSome?_eq_some hfound
      rw [Option.getD_some, ofDecimal_signed, ofDecimal_of_neighbour? hgrid]
      rfl

end Binary64

namespace Json.Token

theorem fraction?_point {decimals rest : List Char} (hdecimals : ∀ d ∈ decimals, d.isDigit = true)
    (hne : decimals ≠ []) (hrest : ∀ c, rest.head? = some c → c.isDigit = false) :
    fraction? ('.' :: (decimals ++ rest)) = some (some decimals, rest) := by
  obtain ⟨d, ds, rfl⟩ := List.exists_cons_of_ne_nil hne
  rw [fraction?, digits_append hdecimals hrest]

theorem exponentDigits?_natural (negative : Bool) (zeros n : ℕ) {rest : List Char}
    (hrest : Ends rest) :
    exponentDigits? negative (List.replicate zeros '0' ++ Digits.natural n ++ rest)
      = some (some (if negative then -(n : ℤ) else n), rest) := by
  have hall : ∀ d ∈ List.replicate zeros '0' ++ Digits.natural n, d.isDigit = true :=
    fun _ => Digits.isDigit_of_mem_zeros_append
  have hdigits := digits_append hall (isDigit_head?_of_ends hrest)
  unfold exponentDigits?
  rw [hdigits]
  split
  · rename_i heq
    have hnil := (Prod.mk.inj heq).1
    exact absurd (List.append_eq_nil_iff.1 hnil).2 (Digits.natural_ne_nil n)
  · rename_i heq
    obtain ⟨rfl, rfl⟩ := Prod.mk.inj heq
    rw [Digits.value_zeros_append, Digits.value_natural]

theorem exponent?_power (width : ℕ) (exponent : ℤ) {rest : List Char} (hrest : Ends rest) :
    exponent? ('e' :: (Binary64.power width exponent ++ rest)) = some (some exponent, rest) := by
  unfold Binary64.power
  simp only [List.cons_append]
  by_cases hneg : exponent < 0
  · have hread := exponentDigits?_natural true
      (width - (Digits.natural exponent.natAbs).length) exponent.natAbs hrest
    rw [if_pos rfl, show -(exponent.natAbs : ℤ) = exponent by omega] at hread
    simpa [exponent?, hneg] using hread
  · have hread := exponentDigits?_natural false
      (width - (Digits.natural exponent.natAbs).length) exponent.natAbs hrest
    rw [if_neg Bool.false_ne_true, show (exponent.natAbs : ℤ) = exponent by omega] at hread
    simpa [exponent?, hneg] using hread

/-- Is the text a numeral that is read as a decimal of the given value? -/
def Spells (cs : List Char) (q : ℚ) : Prop :=
  ∀ negative rest, Ends rest → ∃ d : Decimal, d.value = q
    ∧ number? negative (cs ++ rest) = some (literal (.float (.ofDecimal negative d)), rest)

variable {whole decimals : List Char}

/-- Digits with a point between them spell a decimal. -/
theorem spells_point (hwhole : IsWhole whole) (hdecimals : ∀ d ∈ decimals, d.isDigit = true)
    (hne : decimals ≠ []) :
    Spells (whole ++ '.' :: decimals)
      (Decimal.value ⟨Digits.value (whole ++ decimals), -(decimals.length : ℤ)⟩) := by
  intro negative rest hrest
  have hread := number?_of_parts negative hwhole (fun c hc => by rw [← Option.some.inj hc]; rfl)
    (fraction?_point hdecimals hne (isDigit_head?_of_ends hrest)) (exponent?_of_ends hrest)
  refine ⟨_, rfl, ?_⟩
  rw [List.append_assoc, List.cons_append, hread, number, Option.getD_some, Option.getD_none,
    zero_sub]
  simp

/-- A digit and further ones behind a point, with an exponent, spell a decimal. -/
theorem spells_exponent (width : ℕ) (exponent : ℤ) {first : Char} (hfirst : first.isDigit = true)
    (hdecimals : ∀ d ∈ decimals, d.isDigit = true) :
    Spells ((if decimals = [] then [first] else first :: '.' :: decimals)
        ++ 'e' :: Binary64.power width exponent)
      (Decimal.value ⟨Digits.value (first :: decimals), exponent - decimals.length⟩) := by
  intro negative rest hrest
  have hwhole : IsWhole [first] :=
    ⟨by simpa using hfirst, List.cons_ne_nil _ _, by simp, by simp [Digits.limit]⟩
  have hletter : ∀ cs c, ('e' :: cs).head? = some c → c.isDigit = false := fun cs c hc => by
    rw [← Option.some.inj hc]
    rfl
  refine ⟨_, rfl, ?_⟩
  split
  · rename_i hnil
    subst hnil
    have hread := number?_of_parts negative hwhole
      (hletter (Binary64.power width exponent ++ rest)) rfl (exponent?_power width exponent hrest)
    simpa [number] using hread
  · rename_i hne
    have hread := number?_of_parts negative hwhole (fun c hc => by rw [← Option.some.inj hc]; rfl)
      (fraction?_point hdecimals hne (hletter _)) (exponent?_power width exponent hrest)
    simpa [number] using hread

section Texts

variable {digits : ℕ} {exponent : ℤ}

/-- Digits that are filled up with zeros are a whole part, unless they are those of zero. -/
theorem isWhole_append_zeros {zeros : ℕ} (hzero : digits = 0 → zeros = 0)
    (hlimit : Digits.count digits + zeros ≤ Digits.limit) :
    IsWhole (Digits.natural digits ++ List.replicate zeros '0') where
  digits d hd := by
    rcases List.mem_append.1 hd with hd | hd
    · exact Digits.isDigit_of_mem_natural hd
    · rw [List.eq_of_mem_replicate hd]
      rfl
  ne_nil h := Digits.natural_ne_nil digits (List.append_eq_nil_iff.1 h).1
  noZeroInFront := by
    rintro ⟨hhead, hlen⟩
    rw [List.head?_append_of_ne_nil _ (Digits.natural_ne_nil digits)] at hhead
    obtain rfl := Digits.eq_zero_of_head?_natural hhead
    rw [hzero rfl, List.replicate_zero, List.append_nil] at hlen
    exact absurd hlen (by decide)
  withinLimit := by
    rw [List.length_append, List.length_replicate]
    exact hlimit

/-- The first digits of a number are a whole part, unless they are those of zero. -/
theorem isWhole_take {n : ℕ} (hpos : 0 < n) (hlt : n < Digits.count digits)
    (hlimit : n ≤ Digits.limit) : IsWhole ((Digits.natural digits).take n) where
  digits d hd := Digits.isDigit_of_mem_natural (List.mem_of_mem_take hd)
  ne_nil h := by
    rcases List.take_eq_nil_iff.1 h with h | h
    · omega
    · exact Digits.natural_ne_nil digits h
  noZeroInFront := by
    rintro ⟨hhead, -⟩
    rw [List.head?_take, if_neg hpos.ne'] at hhead
    obtain rfl := Digits.eq_zero_of_head?_natural hhead
    have hcount : Digits.count 0 = 1 := by decide
    omega
  withinLimit := (List.length_take_le n _).trans hlimit

theorem isWhole_zero : IsWhole ['0'] :=
  ⟨List.forall_mem_singleton.2 rfl, List.cons_ne_nil _ _, by simp, by simp [Digits.limit]⟩

/-- The point may stand in front of the digits and of zeros that they are filled up with. -/
theorem spells_fraction (zeros digits : ℕ) :
    Spells ('0' :: '.' :: (List.replicate zeros '0' ++ Digits.natural digits))
      (Decimal.value ⟨digits, -(zeros + Digits.count digits : ℕ)⟩) := by
  have hall : ∀ d ∈ List.replicate zeros '0' ++ Digits.natural digits, d.isDigit = true :=
    fun _ => Digits.isDigit_of_mem_zeros_append
  have hspells := spells_point isWhole_zero hall (by simp [Digits.natural_ne_nil])
  rw [← List.append_assoc, show ['0'] ++ List.replicate zeros '0' = List.replicate (zeros + 1) '0'
    from rfl, Digits.value_zeros_append, Digits.value_natural, List.length_append,
    List.length_replicate] at hspells
  exact hspells

/-- The point may stand behind them. -/
theorem spells_whole {zeros : ℕ} (hzero : digits = 0 → zeros = 0)
    (hlimit : Digits.count digits + zeros ≤ Digits.limit) :
    Spells (Digits.natural digits ++ List.replicate zeros '0' ++ '.' :: ['0'])
      (Decimal.value ⟨digits, zeros⟩) := by
  have hzeros : ∀ d ∈ ['0'], d.isDigit = true := List.forall_mem_singleton.2 rfl
  have hspells := spells_point (isWhole_append_zeros hzero hlimit) hzeros (by decide)
  have hvalue : Digits.value (Digits.natural digits ++ List.replicate zeros '0' ++ ['0'])
      = digits * 10 ^ (zeros + 1) := by
    rw [List.append_assoc, ← List.replicate_succ', Digits.value_append_zeros,
      Digits.value_natural]
  rw [hvalue, Decimal.value_mul_pow] at hspells
  convert hspells using 3
  simp

/-- The point may stand between the digits. -/
theorem spells_inside {n : ℕ} (hpos : 0 < n) (hlt : n < Digits.count digits)
    (hlimit : n ≤ Digits.limit) :
    Spells ((Digits.natural digits).take n ++ '.' :: (Digits.natural digits).drop n)
      (Decimal.value ⟨digits, n - Digits.count digits⟩) := by
  have hall : ∀ d ∈ (Digits.natural digits).drop n, d.isDigit = true := fun d hd =>
    Digits.isDigit_of_mem_natural (List.mem_of_mem_drop hd)
  have hspells := spells_point (isWhole_take hpos hlt hlimit) hall
    (by rw [Ne, List.drop_eq_nil_iff, not_le]; exact hlt)
  rw [List.take_append_drop, Digits.value_natural, List.length_drop] at hspells
  have hexponent : (n : ℤ) - Digits.count digits = -((Digits.natural digits).length - n : ℕ) := by
    unfold Digits.count at hlt ⊢
    omega
  rwa [hexponent]

theorem spells_positional (hzero : digits = 0 → exponent = 0)
    (hlimit : exponent + Digits.count digits ≤ 16) :
    Spells (Binary64.positional (Digits.natural digits) (exponent + Digits.count digits))
      (Decimal.value ⟨digits, exponent⟩) := by
  have hlimits : 16 ≤ Digits.limit := by simp [Digits.limit]
  rcases lt_or_ge exponent 0 with hneg | hnonneg
  · rcases le_or_gt (exponent + Digits.count digits) 0 with hfront | hinside
    · obtain ⟨zeros, hzeros⟩ := Int.exists_eq_neg_ofNat hfront
      obtain rfl : exponent = -(zeros + Digits.count digits : ℕ) := by omega
      rw [hzeros, Binary64.positional_of_nonpos]
      exact spells_fraction zeros digits
    · obtain ⟨n, hn⟩ := Int.eq_ofNat_of_zero_le hinside.le
      obtain rfl : exponent = n - Digits.count digits := by omega
      have hlt : n < Digits.count digits := by omega
      rw [hn, Binary64.positional_of_lt (by omega) hlt]
      exact spells_inside (by omega) hlt (by omega)
  · obtain ⟨zeros, rfl⟩ := Int.eq_ofNat_of_zero_le hnonneg
    rw [add_comm, Digits.count, Binary64.positional_of_le (Digits.natural_ne_nil digits)]
    exact spells_whole (fun h => by exact_mod_cast hzero h) (by omega)

theorem spells_scientific (width : ℕ) (digits : ℕ) (exponent : ℤ) :
    Spells (Binary64.scientific width (Digits.natural digits)
        (exponent + Digits.count digits - 1)) (Decimal.value ⟨digits, exponent⟩) := by
  obtain ⟨first, others, hdigits⟩ := List.exists_cons_of_ne_nil (Digits.natural_ne_nil digits)
  have hall : ∀ d ∈ first :: others, d.isDigit = true := fun d hd =>
    Digits.isDigit_of_mem_natural (hdigits ▸ hd)
  rw [List.forall_mem_cons] at hall
  have hspells := spells_exponent width (exponent + Digits.count digits - 1) hall.1 hall.2
  have hlength : Digits.count digits = others.length + 1 := by
    rw [Digits.count, hdigits, List.length_cons]
  rw [← hdigits, Digits.value_natural,
    show exponent + Digits.count digits - 1 - (others.length : ℤ) = exponent by omega] at hspells
  have htext : Binary64.scientific width (Digits.natural digits)
        (exponent + Digits.count digits - 1)
      = (if others = [] then [first] else first :: '.' :: others)
        ++ 'e' :: Binary64.power width (exponent + Digits.count digits - 1) := by
    unfold Binary64.scientific
    rw [hdigits]
    rcases others with _ | ⟨second, others⟩
    · rfl
    · rw [if_neg (List.cons_ne_nil _ _)]
  rwa [htext]

end Texts

end Json.Token

end SearchConfig
