import Mathlib.Data.List.Induction
import Mathlib.Data.List.TakeWhile
import SearchConfig.Json.Token

/-!
# Numerals

A natural number is written in digits only, without a zero in front, and reads back from them
(`value_natural`). So an integer reads back as a token, whatever stands behind it that does not go on
with a number (`number?_natural`), and every integer that is read can be written within the limit
(`isWritable_of_number?`). A UTF-16 unit reads back from four hexadecimal digits.
-/

namespace SearchConfig

namespace Digits

theorem value_natural (n : Nat) : value (natural n) = n := Nat.ofDigitChars_ten_toDigits

theorem isDigit_of_mem_natural {n : Nat} {c : Char} (h : c ∈ natural n) : c.isDigit = true :=
  Nat.isDigit_of_mem_toDigits (by decide) (by decide) h

theorem natural_ne_nil (n : Nat) : natural n ≠ [] := Nat.toDigits_ne_nil

theorem digitChar_eq_zero : ∀ d, d < 10 → d.digitChar = '0' → d = 0 := by decide

theorem natural_of_lt {n : Nat} (h : n < 10) : natural n = [n.digitChar] :=
  Nat.toDigits_of_lt_base h

theorem natural_of_le {n : Nat} (h : 10 ≤ n) :
    natural n = natural (n / 10) ++ [(n % 10).digitChar] :=
  Nat.toDigits_of_base_le (by decide) h

/-- Only zero is written with a zero in front. -/
theorem eq_zero_of_head?_natural {n : Nat} (h : (natural n).head? = some '0') : n = 0 := by
  rcases Nat.lt_or_ge n 10 with hn | hn
  · rw [natural_of_lt hn] at h
    exact digitChar_eq_zero n hn (Option.some.inj h)
  · obtain ⟨d, ds, hds⟩ := List.exists_cons_of_ne_nil (natural_ne_nil (n / 10))
    rw [natural_of_le hn, hds] at h
    have := eq_zero_of_head?_natural (n := n / 10) (hds ▸ h)
    omega
termination_by n

theorem toNat_sub_lt_of_isDigit {c : Char} (h : c.isDigit = true) : c.toNat - '0'.toNat < 10 := by
  simp only [Char.isDigit, Bool.and_eq_true, decide_eq_true_eq] at h
  have h₁ : c.toNat ≤ 57 := h.2
  have h₂ : '0'.toNat = 48 := rfl
  omega

theorem value_append_singleton (ds : List Char) (d : Char) :
    value (ds ++ [d]) = 10 * value ds + (d.toNat - '0'.toNat) := by
  simp [value]

theorem count_of_lt {n : Nat} (h : n < 10) : count n = 1 := by
  rw [count, natural_of_lt h, List.length_singleton]

theorem count_mul_add_le (n : Nat) {d : Nat} (hd : d < 10) : count (10 * n + d) ≤ count n + 1 := by
  rcases Nat.lt_or_ge (10 * n + d) 10 with h | h
  · rw [count_of_lt h]
    omega
  · have hn : (10 * n + d) / 10 = n := by omega
    rw [count, natural_of_le h, hn, List.length_append, List.length_singleton, count]

theorem count_value_le_length {ds : List Char} (h : ∀ d ∈ ds, d.isDigit = true) :
    count (value ds) ≤ max 1 ds.length := by
  induction ds using List.reverseRecOn with
  | nil => decide
  | append_singleton ds d ih =>
    have hd := toNat_sub_lt_of_isDigit (h d (by simp))
    have hds := ih fun c hc => h c (by simp [hc])
    have hstep := count_mul_add_le (value ds) hd
    rw [value_append_singleton, List.length_append, List.length_singleton]
    rcases ds with _ | ⟨c, ds⟩
    · rw [show value [] = 0 from rfl, count_of_lt (by omega)]
      omega
    · rw [List.length_cons] at hds ⊢
      omega

/-- What digits within the limit stand for is written within the limit. -/
theorem count_value_le {ds : List Char} (h : ∀ d ∈ ds, d.isDigit = true)
    (hlen : ds.length ≤ limit) : count (value ds) ≤ limit := by
  have hcount := count_value_le_length h
  have hlimit : 1 ≤ limit := by decide
  omega

theorem hexValue?_digitChar : ∀ d, d < 16 → hexValue? d.digitChar = some d := by decide

theorem hex_one {u : Nat} (h : u < 16) : hex 1 u = [u.digitChar] := by
  rw [hex, Nat.toDigits_of_lt_base h]
  rfl

theorem hex_succ (width u : Nat) :
    hex (width + 2) u = hex (width + 1) (u / 16) ++ [(u % 16).digitChar] := by
  rw [hex, hex]
  rcases Nat.lt_or_ge u 16 with h | h
  · rw [Nat.toDigits_of_lt_base h, Nat.toDigits_of_lt_base (by omega : u / 16 < 16),
      Nat.mod_eq_of_lt h, Nat.div_eq_of_lt h]
    simp [List.replicate_succ']
  · rw [Nat.toDigits_of_base_le (by decide) h]
    simp

theorem hex_four {u : Nat} (h : u < 65536) :
    hex 4 u = [(u / 16 / 16 / 16).digitChar, (u / 16 / 16 % 16).digitChar,
      (u / 16 % 16).digitChar, (u % 16).digitChar] := by
  rw [hex_succ, hex_succ, hex_succ, hex_one (by omega)]
  rfl

end Digits

namespace Json.Token

/-- No character stands in front with which a number goes on. -/
def Ends (rest : List Char) : Prop :=
  ∀ c, rest.head? = some c → c.isDigit = false ∧ c ≠ '.' ∧ c ≠ 'e' ∧ c ≠ 'E'

theorem ends_nil : Ends [] := fun _ h => by simp at h

theorem ends_cons {c : Char} (hdigit : c.isDigit = false) (hne : c ≠ '.' ∧ c ≠ 'e' ∧ c ≠ 'E')
    (rest : List Char) : Ends (c :: rest) := by
  rintro d h
  obtain rfl := Option.some.inj h
  exact ⟨hdigit, hne⟩

theorem isDigit_head?_of_ends {rest : List Char} (h : Ends rest) :
    ∀ c, rest.head? = some c → c.isDigit = false := fun c hc => (h c hc).1

/-- Digits are taken up to what is none. -/
theorem digits_append {ds rest : List Char} (hds : ∀ d ∈ ds, d.isDigit = true)
    (hrest : ∀ c, rest.head? = some c → c.isDigit = false) : digits (ds ++ rest) = (ds, rest) := by
  have hnone : rest.takeWhile Char.isDigit = [] ∧ rest.dropWhile Char.isDigit = rest := by
    rcases rest with _ | ⟨c, rest⟩
    · exact ⟨rfl, rfl⟩
    · have hc := hrest c rfl
      simp [hc]
  rw [digits, List.takeWhile_append_of_pos hds, List.dropWhile_append_of_pos hds, hnone.1, hnone.2,
    List.append_nil]

theorem fraction?_of_ends {rest : List Char} (h : Ends rest) :
    fraction? rest = some (none, rest) := by
  unfold fraction?
  split
  · exact absurd rfl (h _ rfl).2.1
  · rfl

theorem exponent?_of_ends {rest : List Char} (h : Ends rest) :
    exponent? rest = some (none, rest) := by
  unfold exponent?
  split
  · obtain ⟨-, -, he, hE⟩ := h _ rfl
    simp [he, hE]
  · rfl

/-- Are digits the whole part of a numeral? -/
structure IsWhole (whole : List Char) : Prop where
  digits : ∀ d ∈ whole, d.isDigit = true
  ne_nil : whole ≠ []
  noZeroInFront : ¬ (whole.head? = some '0' ∧ 1 < whole.length)
  withinLimit : whole.length ≤ Digits.limit

/-- A numeral is read part by part. -/
theorem number?_of_parts (negative : Bool) {whole r₀ r₁ rest : List Char}
    {fraction : Option (List Char)} {exponent : Option Int} (hwhole : IsWhole whole)
    (hdigit : ∀ c, r₀.head? = some c → c.isDigit = false)
    (hfraction : fraction? r₀ = some (fraction, r₁))
    (hexponent : exponent? r₁ = some (exponent, rest)) :
    number? negative (whole ++ r₀)
      = some (literal (number negative whole fraction exponent), rest) := by
  unfold number?
  rw [digits_append hwhole.digits hdigit]
  split
  · rename_i heq
    exact absurd (Prod.mk.inj heq).1 hwhole.ne_nil
  · rename_i heq
    obtain ⟨rfl, rfl⟩ := Prod.mk.inj heq
    rw [if_neg (not_or.2 ⟨hwhole.noZeroInFront, Nat.not_lt.2 hwhole.withinLimit⟩), hfraction]
    simp only [Option.bind_eq_bind, Option.bind_some, hexponent]
    rfl

theorem isWhole_natural {n : Nat} (hn : Digits.count n ≤ Digits.limit) :
    IsWhole (Digits.natural n) where
  digits _ := Digits.isDigit_of_mem_natural
  ne_nil := Digits.natural_ne_nil n
  noZeroInFront := by
    rintro ⟨hhead, hlen⟩
    obtain rfl := Digits.eq_zero_of_head?_natural hhead
    exact absurd hlen (by decide)
  withinLimit := hn

/-- A natural number reads back, with the given sign. -/
theorem number?_natural (negative : Bool) {n : Nat} (hn : Digits.count n ≤ Digits.limit)
    {rest : List Char} (hrest : Ends rest) :
    number? negative (Digits.natural n ++ rest)
      = some (literal (.int (if negative then -n else n)), rest) := by
  rw [number?_of_parts negative (isWhole_natural hn) (isDigit_head?_of_ends hrest)
    (fraction?_of_ends hrest) (exponent?_of_ends hrest), number, Digits.value_natural]

/-- An integer that is read can be written. -/
theorem isWritable_of_number? {negative : Bool} {cs rest : List Char} {n : Int}
    (h : number? negative cs = some (literal (.int n), rest)) : Digits.isWritable n = true := by
  unfold number? at h
  split at h
  · simp at h
  · rename_i whole r hne heq
    split at h
    · simp at h
    · rename_i hok
      simp only [not_or, Nat.not_lt] at hok
      obtain ⟨⟨f, r₁⟩, hf, h⟩ := Option.bind_eq_some_iff.1 h
      obtain ⟨⟨e, r₂⟩, he, h⟩ := Option.bind_eq_some_iff.1 h
      have hdigits : ∀ d ∈ whole, d.isDigit = true := by
        rw [← (Prod.mk.inj heq).1]
        exact fun d hd => List.mem_takeWhile_imp hd
      have hcount := Digits.count_value_le hdigits hok.2
      simp only [pure, Option.some.injEq, Prod.mk.injEq, literal.injEq] at h
      unfold number at h
      split at h
      · simp only [Json.int.injEq] at h
        rw [Digits.isWritable, decide_eq_true_eq, ← h.1]
        split <;> simpa using hcount
      · simp at h

/-- A UTF-16 unit reads back from its four digits. -/
theorem hexUnit?_hex {u : Nat} (h : u < 65536) :
    ∃ a b c d, Digits.hex 4 u = [a, b, c, d] ∧ hexUnit? a b c d = some u := by
  refine ⟨_, _, _, _, Digits.hex_four h, ?_⟩
  rw [hexUnit?, Digits.hexValue?_digitChar _ (by omega), Digits.hexValue?_digitChar _ (by omega),
    Digits.hexValue?_digitChar _ (by omega), Digits.hexValue?_digitChar _ (by omega)]
  refine congrArg some ?_
  omega

end Json.Token

end SearchConfig
