import Patchbay.Decimal.Double
import Patchbay.Proofs.Text.Digits
import Mathlib.Algebra.Order.Field.Power
import Mathlib.Data.Int.Log
import Mathlib.Data.Rat.Floor
import Mathlib.Tactic.FieldSimp
import Mathlib.Tactic.GCongr
import Mathlib.Tactic.Linarith
import Mathlib.Tactic.Positivity
import Mathlib.Tactic.Ring

/-!
# The nearest double as a function of a rational number

`magnitudeBits` takes a numerator and a denominator, `decimalBits` a coefficient and a power of
ten.  Both are here shown to be *one* function of the rational number that their arguments stand
for, so that two written forms of one number read as one double, however they are written.

* **`nearest`** is rounding of a rational number to a natural one, a half going to the even
  neighbour; `roundHalfEven` computes it from every fraction of that value.
* **`nearestBits`** are the bits of the double nearest to a rational number, with the unit of the
  last place read off its binary logarithm; `magnitudeBits` and `decimalBits` compute them.
* **`nearestBits_of_close`** is what reading back rests on: a rational number that differs from a
  double by less than one part in `2^54` has the bits of this double.  The bound holds on both
  sides of a power of two, where the unit below is half the unit above.
-/

namespace Patchbay.Double

/-! ## Rounding to a natural number -/

/-- The natural number nearest to `q`, half-way cases to the even one. -/
def nearest (q : ℚ) : ℕ := roundHalfEven q.num.natAbs q.den

theorem roundHalfEven_mul_right (num den : ℕ) {k : ℕ} (hk : 0 < k) :
    roundHalfEven (num * k) (den * k) = roundHalfEven num den := by
  have hlt : 2 * (num % den * k) < den * k ↔ 2 * (num % den) < den := by
    rw [← Nat.mul_assoc]
    exact Nat.mul_lt_mul_right hk
  have hgt : den * k < 2 * (num % den * k) ↔ den < 2 * (num % den) := by
    rw [← Nat.mul_assoc]
    exact Nat.mul_lt_mul_right hk
  unfold roundHalfEven
  simp only [Nat.mul_div_mul_right _ _ hk, Nat.mul_mod_mul_right, hlt, hgt]

/-- The numerator of a rational number that is not negative, as a natural number. -/
theorem natAbs_num {q : ℚ} (hq : 0 ≤ q) : ((q.num.natAbs : ℕ) : ℚ) = q * q.den := by
  rw [Nat.cast_natAbs, abs_of_nonneg (Rat.num_nonneg.mpr hq), Rat.mul_den_eq_num]

/-- Fractions of one value round to one number. -/
theorem roundHalfEven_eq_nearest (num : ℕ) {den : ℕ} (hden : 0 < den) :
    roundHalfEven num den = nearest ((num : ℚ) / den) := by
  set q : ℚ := (num : ℚ) / den with hq
  have hden' : (den : ℚ) ≠ 0 := by positivity
  have hnonneg : 0 ≤ q := by positivity
  have hcross : q.num.natAbs * den = num * q.den := by
    have hrat : ((q.num.natAbs : ℕ) : ℚ) * den = num * q.den := by
      rw [natAbs_num hnonneg, hq]
      field_simp
    exact_mod_cast hrat
  calc roundHalfEven num den
      = roundHalfEven (num * q.den) (den * q.den) :=
        (roundHalfEven_mul_right num den q.den_pos).symm
    _ = roundHalfEven (q.num.natAbs * den) (q.den * den) := by
        rw [← hcross, Nat.mul_comm den]
    _ = nearest q := roundHalfEven_mul_right _ _ hden

/-- A natural number less than a half away from a fraction is its rounding. -/
theorem roundHalfEven_eq_of_close {num den n : ℕ} (hlow : 2 * n * den < 2 * num + den)
    (hhigh : 2 * num < 2 * n * den + den) : roundHalfEven num den = n := by
  have hdm : den * (num / den) + num % den = num := Nat.div_add_mod num den
  have hden : 0 < den := by
    rcases Nat.eq_zero_or_pos den with h | h
    · subst h
      omega
    · exact h
  have hmod : num % den < den := Nat.mod_lt _ hden
  generalize hq : num / den = q at hdm
  generalize hr : num % den = r at hdm hmod
  -- The quotient is `n` or its predecessor; the remainder tells which.
  have hle : q ≤ n := by
    by_contra hcon
    have : den * (n + 1) ≤ den * q := Nat.mul_le_mul_left den (by omega)
    nlinarith
  have hge : n ≤ q + 1 := by
    by_contra hcon
    have : den * (q + 2) ≤ den * n := Nat.mul_le_mul_left den (by omega)
    nlinarith
  unfold roundHalfEven
  simp only [hq, hr]
  rcases Nat.lt_or_ge q n with hlt | hge'
  · have hn : n = q + 1 := by omega
    subst hn
    have : den < 2 * r := by nlinarith
    simp only [Nat.not_lt.mpr this.le, if_neg, if_pos this, not_false_eq_true]
  · have hn : n = q := by omega
    subst hn
    have : 2 * r < den := by nlinarith
    simp only [if_pos this]

theorem nearest_eq_of_close {q : ℚ} (hq : 0 ≤ q) {n : ℕ} (h : |q - n| < 1 / 2) :
    nearest q = n := by
  have hden : (0 : ℚ) < q.den := by exact_mod_cast q.den_pos
  obtain ⟨hl, hr⟩ := abs_lt.mp h
  apply roundHalfEven_eq_of_close
  · have hlow : (2 : ℚ) * n * q.den < 2 * q.num.natAbs + q.den := by
      rw [natAbs_num hq]
      nlinarith
    exact_mod_cast hlow
  · have hhigh : (2 : ℚ) * q.num.natAbs < 2 * n * q.den + q.den := by
      rw [natAbs_num hq]
      nlinarith
    exact_mod_cast hhigh

theorem roundHalfEven_bounds (num : ℕ) {den : ℕ} (hden : 0 < den) :
    2 * roundHalfEven num den * den ≤ 2 * num + den
      ∧ 2 * num ≤ 2 * roundHalfEven num den * den + den := by
  have hdm : den * (num / den) + num % den = num := Nat.div_add_mod num den
  have hmod : num % den < den := Nat.mod_lt _ hden
  unfold roundHalfEven
  dsimp only
  generalize num / den = q at hdm
  generalize num % den = r at hdm hmod
  split
  · constructor <;> nlinarith
  · split
    · constructor <;> nlinarith
    · rcases Nat.mod_two_eq_zero_or_one q with h | h <;> rw [h] <;> constructor <;> nlinarith

/-- Rounding moves a number by at most a half. -/
theorem abs_sub_nearest_le {q : ℚ} (hq : 0 ≤ q) : |q - nearest q| ≤ 1 / 2 := by
  have hden : (0 : ℚ) < q.den := by exact_mod_cast q.den_pos
  obtain ⟨hl, hr⟩ := roundHalfEven_bounds q.num.natAbs q.den_pos
  have hl' : (2 : ℚ) * nearest q * q.den ≤ 2 * q.num.natAbs + q.den := by exact_mod_cast hl
  have hr' : (2 : ℚ) * q.num.natAbs ≤ 2 * nearest q * q.den + q.den := by exact_mod_cast hr
  rw [natAbs_num hq] at hl' hr'
  rw [abs_le]
  constructor <;> nlinarith

/-! ## The bits of the nearest double -/

/-- The exponent of the unit in the last place of the doubles around `q`. -/
def unitExponent (q : ℚ) : ℤ := max (Int.log 2 q - 52) (-1074)

/-- The bits of a mantissa in units of `2^exponent`. -/
def assemble (mantissa : ℕ) (exponent : ℤ) : ℕ :=
  if mantissa < 2 ^ 52 then mantissa
  else (exponent + 1075).toNat * 2 ^ 52 + (mantissa - 2 ^ 52)

/-- The bits of the double nearest to a rational number that is not negative. -/
def nearestBits (q : ℚ) : ℕ :=
  if q = 0 then 0
  else min (assemble (nearest (q / 2 ^ unitExponent q)) (unitExponent q)) infinityBits

theorem log_two_eq {q : ℚ} {t : ℤ} (hlow : (2 : ℚ) ^ t ≤ q) (hhigh : q < 2 ^ (t + 1)) :
    Int.log 2 q = t := by
  have hq : 0 < q := lt_of_lt_of_le (by positivity) hlow
  have hge : t ≤ Int.log 2 q := (Int.zpow_le_iff_le_log one_lt_two hq).mp (by exact_mod_cast hlow)
  have hlt : Int.log 2 q < t + 1 :=
    (Int.lt_zpow_iff_log_lt one_lt_two hq).mp (by exact_mod_cast hhigh)
  omega

/-- A positive natural number between two powers of two. -/
theorem log2_bounds {n : ℕ} (hn : n ≠ 0) :
    (2 : ℚ) ^ (n.log2 : ℤ) ≤ n ∧ (n : ℚ) < 2 ^ ((n.log2 : ℤ) + 1) := by
  constructor
  · rw [zpow_natCast]
    exact_mod_cast Nat.log2_self_le hn
  · have hlt : (n : ℚ) < 2 ^ (n.log2 + 1) := by exact_mod_cast Nat.lt_log2_self
    exact_mod_cast hlt

/-- The logarithm of a fraction from the numbers of bits of its two parts: their difference, or
one less. -/
theorem log_fraction {num den : ℕ} (hnum : num ≠ 0) (hden : den ≠ 0) :
    Int.log 2 ((num : ℚ) / den)
      = if (2 : ℚ) ^ ((num.log2 : ℤ) - den.log2) ≤ num / den then (num.log2 : ℤ) - den.log2
        else (num.log2 : ℤ) - den.log2 - 1 := by
  have hd : (0 : ℚ) < den := by positivity
  obtain ⟨hnumLow, hnumHigh⟩ := log2_bounds hnum
  obtain ⟨hdenLow, hdenHigh⟩ := log2_bounds hden
  split
  · next h =>
    refine log_two_eq h ?_
    rw [div_lt_iff₀ hd]
    calc (num : ℚ) < 2 ^ ((num.log2 : ℤ) + 1) := hnumHigh
      _ = 2 ^ ((num.log2 : ℤ) - den.log2 + 1) * 2 ^ (den.log2 : ℤ) := by
          rw [← zpow_add₀ two_ne_zero]
          congr 1
          ring
      _ ≤ 2 ^ ((num.log2 : ℤ) - den.log2 + 1) * den := by gcongr
  · next h =>
    refine log_two_eq ?_ (by simpa using h)
    rw [le_div_iff₀ hd]
    calc (2 : ℚ) ^ ((num.log2 : ℤ) - den.log2 - 1) * den
        ≤ 2 ^ ((num.log2 : ℤ) - den.log2 - 1) * 2 ^ ((den.log2 : ℤ) + 1) := by gcongr
      _ = 2 ^ (num.log2 : ℤ) := by
          rw [← zpow_add₀ two_ne_zero]
          congr 1
          ring
      _ ≤ num := hnumLow

/-- A fraction in units of a power, with the power on the side where it is natural. -/
theorem scaled_fraction (num den base : ℕ) (e : ℤ) :
    (num : ℚ) / den / (base : ℚ) ^ e
      = if 0 ≤ e then (num : ℚ) / ((den * base ^ e.toNat : ℕ) : ℚ)
        else ((num * base ^ (-e).toNat : ℕ) : ℚ) / den := by
  split
  · next h =>
    obtain ⟨n, rfl⟩ := Int.eq_ofNat_of_zero_le h
    push_cast
    rw [Int.toNat_natCast, zpow_natCast, div_div]
  · next h =>
    obtain ⟨n, hn⟩ := Int.eq_ofNat_of_zero_le (by omega : 0 ≤ -e)
    obtain rfl : e = -(n : ℤ) := by omega
    push_cast
    rw [neg_neg, Int.toNat_natCast, zpow_neg, zpow_natCast, div_inv_eq_mul, div_mul_eq_mul_div]

/-- **`magnitudeBits` computes the bits of the nearest double**, from every fraction of the
number. -/
theorem magnitudeBits_eq (num : ℕ) {den : ℕ} (hden : den ≠ 0) :
    magnitudeBits num den = nearestBits ((num : ℚ) / den) := by
  by_cases hnum : num = 0
  · simp [hnum, nearestBits]
  have hd : (0 : ℚ) < den := by positivity
  have hq : (num : ℚ) / den ≠ 0 := by positivity
  have hscaled := fun e : ℤ => scaled_fraction num den 2 e
  simp only [Nat.cast_ofNat] at hscaled
  have hreaches : ∀ g : ℤ,
      (if 0 ≤ g then den * 2 ^ g.toNat ≤ num else den ≤ num * 2 ^ (-g).toNat)
        ↔ (2 : ℚ) ^ g ≤ num / den := by
    intro g
    have hone : (1 : ℚ) ≤ num / den / 2 ^ g ↔ (2 : ℚ) ^ g ≤ num / den :=
      one_le_div₀ (by positivity)
    rw [← hone, hscaled]
    split
    · rw [one_le_div₀ (by positivity)]
      norm_cast
    · rw [one_le_div₀ hd]
      norm_cast
  have hunit : unitExponent ((num : ℚ) / den)
      = max ((if (if 0 ≤ (num.log2 : ℤ) - den.log2
                  then den * 2 ^ ((num.log2 : ℤ) - den.log2).toNat ≤ num
                  else den ≤ num * 2 ^ (-((num.log2 : ℤ) - den.log2)).toNat)
              then (num.log2 : ℤ) - den.log2 else (num.log2 : ℤ) - den.log2 - 1) - 52) (-1074) := by
    rw [unitExponent, log_fraction hnum hden]
    simp only [hreaches]
  unfold magnitudeBits nearestBits
  rw [if_neg hnum, if_neg hq]
  simp only [← hunit, assemble, hscaled]
  generalize unitExponent ((num : ℚ) / den) = e
  by_cases he : 0 ≤ e
  · simp only [if_pos he, ← roundHalfEven_eq_nearest num (by positivity : 0 < den * 2 ^ e.toNat)]
  · simp only [if_neg he, ← roundHalfEven_eq_nearest _ (by omega : 0 < den)]

/-! ## Numbers far outside the doubles -/

/-- The doubles end below a power of ten. -/
theorem two_pow_le_ten_pow : (2 : ℚ) ^ (1024 : ℤ) ≤ 10 ^ (310 : ℤ) := by
  have hnat : 2 ^ 1024 ≤ 10 ^ 310 := by decide +kernel
  exact_mod_cast hnat

/-- Half of the smallest double is above a power of ten. -/
theorem ten_pow_le_two_pow : (10 : ℚ) ^ (-330 : ℤ) ≤ 2 ^ (-1075 : ℤ) := by
  have hnat : 2 ^ 1075 ≤ 10 ^ 330 := by decide +kernel
  have hrat : (2 : ℚ) ^ 1075 ≤ 10 ^ 330 := by exact_mod_cast hnat
  rw [zpow_neg, zpow_neg]
  exact inv_anti₀ (by positivity) (by exact_mod_cast hrat)

/-- From `2^1024` on, everything is infinite. -/
theorem nearestBits_of_huge {q : ℚ} (hq : (2 : ℚ) ^ (1024 : ℤ) ≤ q) :
    nearestBits q = infinityBits := by
  have hpos : 0 < q := lt_of_lt_of_le (by positivity) hq
  have htop : 1024 ≤ Int.log 2 q :=
    (Int.zpow_le_iff_le_log one_lt_two hpos).mp (by rwa [Nat.cast_ofNat])
  have hunit : unitExponent q = Int.log 2 q - 52 := by
    unfold unitExponent
    omega
  have hself : (2 : ℚ) ^ Int.log 2 q ≤ q := by
    have := Int.zpow_log_le_self one_lt_two hpos
    exact_mod_cast this
  -- The number fills the 53 bits of its mantissa, and so does its rounding.
  have hfull : (2 : ℚ) ^ 52 ≤ q / 2 ^ unitExponent q := by
    rw [hunit, le_div_iff₀ (by positivity)]
    calc (2 : ℚ) ^ 52 * 2 ^ (Int.log 2 q - 52) = 2 ^ Int.log 2 q := by
          rw [zpow_sub₀ two_ne_zero]
          norm_num
          ring
      _ ≤ q := hself
  have hmantissa : 2 ^ 52 ≤ nearest (q / 2 ^ unitExponent q) := by
    have hclose := abs_le.mp (abs_sub_nearest_le (le_trans (by positivity) hfull))
    have hcast : ((2 ^ 52 : ℕ) : ℚ) < (nearest (q / 2 ^ unitExponent q) + 1 : ℕ) := by
      push_cast
      linarith [hclose.2]
    have : 2 ^ 52 < nearest (q / 2 ^ unitExponent q) + 1 := by exact_mod_cast hcast
    omega
  rw [nearestBits, if_neg hpos.ne', assemble, if_neg (by omega), min_eq_right]
  unfold infinityBits
  omega

/-- Below half of the smallest double, everything is zero. -/
theorem nearestBits_of_tiny {q : ℚ} (hq : 0 ≤ q) (hlt : q < 2 ^ (-1075 : ℤ)) :
    nearestBits q = 0 := by
  rcases hq.eq_or_lt with h | hpos
  · simp [nearestBits, ← h]
  have htop : Int.log 2 q < -1075 :=
    (Int.lt_zpow_iff_log_lt one_lt_two hpos).mp (by exact_mod_cast hlt)
  have hunit : unitExponent q = -1074 := by
    unfold unitExponent
    omega
  have hzero : nearest (q / 2 ^ (-1074 : ℤ)) = 0 := by
    apply nearest_eq_of_close (by positivity)
    rw [Nat.cast_zero, sub_zero, abs_of_pos (by positivity), div_lt_iff₀ (by positivity)]
    calc q < 2 ^ (-1075 : ℤ) := hlt
      _ = 1 / 2 * 2 ^ (-1074 : ℤ) := by
          rw [show (-1075 : ℤ) = -1 + -1074 by norm_num, zpow_add₀ two_ne_zero]
          norm_num
  rw [nearestBits, if_neg hpos.ne', hunit, hzero]
  rfl

theorem decimalRatio_value (m : ℕ) (e : ℤ) :
    ((decimalRatio m e).1 : ℚ) / (decimalRatio m e).2 = m * 10 ^ e
      ∧ (decimalRatio m e).2 ≠ 0 := by
  unfold decimalRatio
  split
  · next h =>
    obtain ⟨n, rfl⟩ := Int.eq_ofNat_of_zero_le h
    simp
  · next h =>
    obtain ⟨n, hn⟩ := Int.eq_ofNat_of_zero_le (by omega : 0 ≤ -e)
    obtain rfl : e = -(n : ℤ) := by omega
    simp [div_eq_mul_inv]

/-- The leading digit of a written number bounds it. -/
theorem decimal_bounds {m : ℕ} (hm : m ≠ 0) (e : ℤ) :
    (10 : ℚ) ^ ((Text.digitCount m : ℤ) + e - 1) ≤ m * 10 ^ e
      ∧ (m : ℚ) * 10 ^ e < 10 ^ ((Text.digitCount m : ℤ) + e) := by
  have hpos := Text.digitCount_pos m
  have hlow : ((10 : ℚ) ^ (Text.digitCount m - 1)) ≤ m := by
    exact_mod_cast Text.pow_digitCount_le hm
  have hhigh : (m : ℚ) < 10 ^ Text.digitCount m := by exact_mod_cast Text.lt_pow_digitCount m
  constructor
  · have hexp : (Text.digitCount m : ℤ) + e - 1 = ((Text.digitCount m - 1 : ℕ) : ℤ) + e := by
      omega
    rw [hexp, zpow_add₀ (by norm_num), zpow_natCast]
    gcongr
  · rw [zpow_add₀ (by norm_num), zpow_natCast]
    gcongr

/-- **`decimalBits` computes the bits of the nearest double** from a coefficient and a power of
ten; what it decides by the number of digits alone is decided rightly. -/
theorem decimalBits_eq (m : ℕ) (e : ℤ) : decimalBits m e = nearestBits (m * 10 ^ e) := by
  by_cases hm : m = 0
  · simp [decimalBits, nearestBits, hm]
  obtain ⟨hlow, hhigh⟩ := decimal_bounds hm e
  unfold decimalBits
  simp only [if_neg hm]
  split
  · next h =>
    refine (nearestBits_of_huge ?_).symm
    calc (2 : ℚ) ^ (1024 : ℤ) ≤ 10 ^ (310 : ℤ) := two_pow_le_ten_pow
      _ ≤ 10 ^ ((Text.digitCount m : ℤ) + e - 1) :=
          zpow_le_zpow_right₀ (by norm_num) (by omega)
      _ ≤ m * 10 ^ e := hlow
  · split
    · next h =>
      refine (nearestBits_of_tiny (by positivity) ?_).symm
      calc (m : ℚ) * 10 ^ e < 10 ^ ((Text.digitCount m : ℤ) + e) := hhigh
        _ ≤ 10 ^ (-330 : ℤ) := zpow_le_zpow_right₀ (by norm_num) (by omega)
        _ ≤ 2 ^ (-1075 : ℤ) := ten_pow_le_two_pow
    · obtain ⟨hvalue, hden⟩ := decimalRatio_value m e
      rw [magnitudeBits_eq _ hden, hvalue]

/-! ## Numbers close to a double -/

/-- A mantissa and an exponent as finite doubles have them: the mantissa is below `2^53`, and it
fills its 53 bits unless the exponent is the smallest one. -/
structure Canonical (mantissa : ℕ) (exponent : ℤ) : Prop where
  lt : mantissa < 2 ^ 53
  normal : 2 ^ 52 ≤ mantissa ∨ exponent = -1074
  exponent_ge : -1074 ≤ exponent
  exponent_le : exponent ≤ 971

theorem assemble_lt {m : ℕ} {e : ℤ} (h : Canonical m e) : assemble m e < infinityBits := by
  have hm := h.lt
  have he := h.exponent_le
  unfold assemble infinityBits
  split <;> omega

/-- The unit around a number close to a double is the double's own, or half of it just below a
power of two. -/
theorem unitExponent_of_close {m : ℕ} {e : ℤ} (hc : Canonical m e) {r : ℚ}
    (hr : |r - m| * 2 ^ 54 < m) :
    unitExponent (r * 2 ^ e) = e
      ∨ (m = 2 ^ 52 ∧ -1074 < e ∧ unitExponent (r * 2 ^ e) = e - 1) := by
  have hu : (0 : ℚ) < 2 ^ e := by positivity
  have hm : (m : ℚ) ≤ 2 ^ 53 - 1 := by
    have := hc.lt
    have hle : m + 1 ≤ 2 ^ 53 := this
    have hcast : (m : ℚ) + 1 ≤ 2 ^ 53 := by exact_mod_cast hle
    linarith
  have hbelow : (m : ℚ) - r ≤ |r - m| := by
    rw [abs_sub_comm]
    exact le_abs_self _
  have habove : r - m ≤ |r - m| := le_abs_self _
  have hpos : 0 < r * 2 ^ e := by
    have : 0 < r := by nlinarith [abs_nonneg (r - m)]
    positivity
  have htop : Int.log 2 (r * 2 ^ e) < e + 53 := by
    apply (Int.lt_zpow_iff_log_lt one_lt_two hpos).mp
    push_cast
    rw [zpow_add₀ two_ne_zero, mul_comm]
    have : r < 2 ^ 53 := by linarith
    exact mul_lt_mul_of_pos_left (by exact_mod_cast this) hu
  by_cases he : e = -1074
  · left
    unfold unitExponent
    omega
  have hfull : 2 ^ 52 ≤ m := hc.normal.resolve_right he
  have hfull' : (2 : ℚ) ^ 52 ≤ m := by exact_mod_cast hfull
  have hlow : e + 51 ≤ Int.log 2 (r * 2 ^ e) := by
    apply (Int.zpow_le_iff_le_log one_lt_two hpos).mp
    push_cast
    rw [zpow_add₀ two_ne_zero, mul_comm]
    have : (2 : ℚ) ^ 51 ≤ r := by linarith
    exact mul_le_mul_of_nonneg_right (by exact_mod_cast this) hu.le
  have hge := hc.exponent_ge
  rcases (by omega : Int.log 2 (r * 2 ^ e) = e + 52 ∨ Int.log 2 (r * 2 ^ e) = e + 51) with ht | ht
  · left
    rw [unitExponent, ht]
    omega
  · right
    refine ⟨?_, by omega, ?_⟩
    · have hlt : r * 2 ^ e < 2 ^ (e + 52) := by
        have := Int.lt_zpow_succ_log_self one_lt_two (r * 2 ^ e)
        rw [ht] at this
        have hexp : e + 51 + 1 = e + 52 := by ring
        rw [hexp] at this
        exact_mod_cast this
      rw [zpow_add₀ two_ne_zero, mul_comm] at hlt
      have hr52 : r < 2 ^ 52 := by exact_mod_cast lt_of_mul_lt_mul_left hlt hu.le
      have hlt' : (m : ℚ) < 2 ^ 52 + 1 := by linarith
      have : m < 2 ^ 52 + 1 := by exact_mod_cast hlt'
      omega
    · rw [unitExponent, ht]
      omega

/-- **A number close to a double reads as this double.**  Less than one part in `2^54` keeps it
within half a unit of the last place, and just below a power of two within half of the smaller
unit there. -/
theorem nearestBits_of_close {m : ℕ} {e : ℤ} (hc : Canonical m e) {q : ℚ}
    (hq : |q - m * 2 ^ e| * 2 ^ 54 < m * 2 ^ e) : nearestBits q = assemble m e := by
  have hu : (0 : ℚ) < 2 ^ e := by positivity
  obtain ⟨r, rfl⟩ : ∃ r : ℚ, q = r * 2 ^ e := ⟨q / 2 ^ e, by field_simp⟩
  have hr : |r - m| * 2 ^ 54 < m := by
    rw [← sub_mul, abs_mul, abs_of_pos hu, mul_right_comm] at hq
    exact lt_of_mul_lt_mul_right hq hu.le
  have hm : (m : ℚ) < 2 ^ 53 := by exact_mod_cast hc.lt
  have hbelow : (m : ℚ) - r ≤ |r - m| := by
    rw [abs_sub_comm]
    exact le_abs_self _
  have hrpos : 0 < r := by nlinarith [abs_nonneg (r - m)]
  have hne : r * 2 ^ e ≠ 0 := by positivity
  rw [nearestBits, if_neg hne]
  rcases unitExponent_of_close hc hr with hunit | ⟨hpow, he, hunit⟩
  · have hscaled : r * 2 ^ e / 2 ^ e = r := by field_simp
    have hnearest : nearest r = m := nearest_eq_of_close hrpos.le (by linarith)
    rw [hunit, hscaled, hnearest, min_eq_left (assemble_lt hc).le]
  · have hscaled : r * 2 ^ e / 2 ^ (e - 1) = r * 2 := by
      rw [zpow_sub_one₀ two_ne_zero]
      field_simp
    have hnearest : nearest (r * 2) = 2 ^ 53 := by
      apply nearest_eq_of_close (by positivity)
      have hdouble : r * 2 - ((2 ^ 53 : ℕ) : ℚ) = (r - m) * 2 := by
        rw [hpow]
        push_cast
        ring
      rw [hdouble, abs_mul, abs_two]
      rw [hpow] at hr ⊢
      push_cast at hr ⊢
      linarith
    have hsame : assemble (2 ^ 53) (e - 1) = assemble m e := by
      rw [hpow]
      rw [assemble, assemble, if_neg (by norm_num), if_neg (by norm_num)]
      omega
    rw [hunit, hscaled, hnearest, hsame, min_eq_left (assemble_lt hc).le]

end Patchbay.Double
