import Patchbay.Decimal.Shortest
import Patchbay.Proofs.Double.Bits

/-!
# The shortest digits read back

The search for the fewest digits tests its candidates by reading them, so what it finds reads back
by construction.  What is left to show is that it never comes out empty-handed *and wrong*: with
seventeen digits, plain rounding is close enough to the double.

* **`leadingExponent_bounds`** — the exponent of the leading digit is the decimal logarithm.
* **`abs_rounded_sub_le`** — rounding to a number of digits is off by at most half a unit of the
  last one.
* **`decimalBits_shortest`** — the digits of a finite double read as its bits.  `10^16 > 2^53`
  is all the arithmetic behind the number seventeen.
-/

namespace Patchbay.Double

/-! ## The leading digit -/

/-- The digits before the point of a fraction bound it. -/
theorem digitCount_div_bounds (a : ℕ) {b : ℕ} (hb : 0 < b) (h : b ≤ a) :
    (10 : ℚ) ^ ((Text.digitCount (a / b) : ℤ) - 1) ≤ a / b
      ∧ (a : ℚ) / b < 10 ^ (Text.digitCount (a / b) : ℤ) := by
  have hb' : (0 : ℚ) < b := by exact_mod_cast hb
  have hpos := Text.digitCount_pos (a / b)
  have hlow : 10 ^ (Text.digitCount (a / b) - 1) * b ≤ a := by
    rw [← Nat.le_div_iff_mul_le hb]
    exact Text.pow_digitCount_le (Nat.div_pos h hb).ne'
  have hhigh : a < 10 ^ Text.digitCount (a / b) * b := by
    rw [← Nat.div_lt_iff_lt_mul hb]
    exact Text.lt_pow_digitCount _
  have hexp : (Text.digitCount (a / b) : ℤ) - 1 = ((Text.digitCount (a / b) - 1 : ℕ) : ℤ) := by
    omega
  constructor
  · rw [le_div_iff₀ hb', hexp, zpow_natCast]
    exact_mod_cast hlow
  · rw [div_lt_iff₀ hb', zpow_natCast]
    exact_mod_cast hhigh

/-- The exponent of the leading digit of a fraction that is not tiny is its decimal logarithm. -/
theorem leadingExponent_bounds (num : ℕ) {den : ℕ} (hden : den ≠ 0)
    (hq : (10 : ℚ) ^ (-400 : ℤ) ≤ num / den) :
    (10 : ℚ) ^ leadingExponent num den ≤ num / den
      ∧ (num : ℚ) / den < 10 ^ (leadingExponent num den + 1) := by
  have hd : (0 : ℚ) < den := by positivity
  obtain ⟨p, hpow, hlead⟩ : ∃ p : ℕ, (p : ℚ) = 10 ^ (400 : ℤ)
      ∧ leadingExponent num den = (Text.digitCount (p * num / den) : ℤ) - 401 := by
    refine ⟨100 ^ 200, ?_, rfl⟩
    rw [Nat.cast_pow, Nat.cast_ofNat, show (100 : ℚ) = 10 ^ (2 : ℤ) by norm_num, ← zpow_natCast,
      ← zpow_mul]
    rfl
  have hten : (0 : ℚ) < 10 ^ (400 : ℤ) := by positivity
  have hle : den ≤ p * num := by
    rw [zpow_neg, ← hpow, le_div_iff₀ hd, inv_mul_le_iff₀ (hpow ▸ hten)] at hq
    exact_mod_cast hq
  obtain ⟨hlow, hhigh⟩ := digitCount_div_bounds (p * num) (Nat.pos_of_ne_zero hden) hle
  have hscale : ((p * num : ℕ) : ℚ) / den = num / den * 10 ^ (400 : ℤ) := by
    rw [← hpow]
    push_cast
    ring
  rw [hscale] at hlow hhigh
  rw [hlead]
  constructor
  · refine le_of_mul_le_mul_right ?_ hten
    rwa [← zpow_add₀ (by norm_num), show ∀ d : ℤ, d - 401 + 400 = d - 1 by intro d; ring]
  · refine lt_of_mul_lt_mul_right ?_ hten.le
    rwa [← zpow_add₀ (by norm_num), show ∀ d : ℤ, d - 401 + 1 + 400 = d by intro d; ring]

/-! ## Grids -/

theorem onGrid_value (num : ℕ) {den : ℕ} (hden : den ≠ 0) (scale : ℤ) :
    ((onGrid num den scale).1 : ℚ) / (onGrid num den scale).2 = num / den / 10 ^ scale
      ∧ 0 < (onGrid num den scale).2 := by
  have hscaled := scaled_fraction num den 10 scale
  rw [Nat.cast_ofNat] at hscaled
  rw [hscaled]
  unfold onGrid
  split
  · exact ⟨rfl, by positivity⟩
  · exact ⟨rfl, by positivity⟩

theorem rounded_eq (num den places : ℕ) :
    rounded num den places
      = ⟨roundHalfEven (onGrid num den (leadingExponent num den - places + 1)).1
          (onGrid num den (leadingExponent num den - places + 1)).2,
        leadingExponent num den - places + 1⟩ := rfl

/-- Rounding to a grid is off by at most half its unit. -/
theorem abs_rounded_sub_le (num : ℕ) {den : ℕ} (hden : den ≠ 0) (places : ℕ) :
    |((rounded num den places).digits : ℚ) * 10 ^ (rounded num den places).scale - num / den|
      ≤ 10 ^ (leadingExponent num den - places + 1) / 2 := by
  rw [rounded_eq]
  generalize leadingExponent num den - places + 1 = scale
  obtain ⟨hvalue, hpos⟩ := onGrid_value num hden scale
  have hu : (0 : ℚ) < 10 ^ scale := by positivity
  rw [roundHalfEven_eq_nearest _ hpos, hvalue]
  have hnearest := abs_sub_nearest_le
    (by positivity : (0 : ℚ) ≤ (num : ℚ) / den / 10 ^ scale)
  have hsplit : (nearest ((num : ℚ) / den / 10 ^ scale) : ℚ) * 10 ^ scale - num / den
      = -((num / den / 10 ^ scale - nearest ((num : ℚ) / den / 10 ^ scale)) * 10 ^ scale) := by
    field_simp
    ring
  rw [hsplit, abs_neg, abs_mul, abs_of_pos hu]
  calc |(num : ℚ) / den / 10 ^ scale - nearest ((num : ℚ) / den / 10 ^ scale)| * 10 ^ scale
      ≤ 1 / 2 * 10 ^ scale := by gcongr
    _ = 10 ^ scale / 2 := by ring

/-! ## Reading back -/

/-- A neighbour that was found reads as the bits it was tested for. -/
theorem decimalBits_neighbour {num den bits : ℕ} {scale : ℤ} {d : Digits}
    (h : neighbour? num den bits scale = some d) : decimalBits d.digits d.scale = bits := by
  unfold neighbour? at h
  dsimp only at h
  generalize hlow : (onGrid num den scale).1 / (onGrid num den scale).2 = low at h
  split at h
  · next hboth =>
    simp only [Bool.and_eq_true, beq_iff_eq] at hboth
    split at h
    · obtain rfl := Option.some.inj h
      exact hboth.1
    · split at h
      · obtain rfl := Option.some.inj h
        exact hboth.2
      · obtain rfl := Option.some.inj h
        rcases Nat.mod_two_eq_zero_or_one low with heven | hodd
        · simpa [heven] using hboth.1
        · simpa [hodd] using hboth.2
  · split at h
    · next hfits =>
      obtain rfl := Option.some.inj h
      exact beq_iff_eq.mp hfits
    · split at h
      · next hfits =>
        obtain rfl := Option.some.inj h
        exact beq_iff_eq.mp hfits
      · exact absurd h (by simp)

/-- Seventeen digits of a finite double read as its bits. -/
theorem decimalBits_rounded {num den m : ℕ} {e : ℤ} (hc : Canonical m e) (hm : 0 < m)
    (hden : den ≠ 0) (hvalue : (num : ℚ) / den = m * 2 ^ e) :
    decimalBits (rounded num den 17).digits (rounded num den 17).scale = assemble m e := by
  have hm1 : (1 : ℚ) ≤ m := by exact_mod_cast hm
  have hsmall : (10 : ℚ) ^ (-400 : ℤ) ≤ num / den := by
    rw [hvalue]
    calc (10 : ℚ) ^ (-400 : ℤ) ≤ 10 ^ (-330 : ℤ) := zpow_le_zpow_right₀ (by norm_num) (by norm_num)
      _ ≤ 2 ^ (-1075 : ℤ) := ten_pow_le_two_pow
      _ ≤ 2 ^ e := zpow_le_zpow_right₀ (by norm_num) (by have := hc.exponent_ge; omega)
      _ ≤ m * 2 ^ e := le_mul_of_one_le_left (by positivity) hm1
  obtain ⟨hlead, -⟩ := leadingExponent_bounds num hden hsmall
  have hclose := abs_rounded_sub_le num hden 17
  rw [decimalBits_eq]
  apply nearestBits_of_close hc
  rw [← hvalue]
  set top := leadingExponent num den
  have hunit : (10 : ℚ) ^ top = 10 ^ (top - (17 : ℕ) + 1) * 10 ^ 16 := by
    rw [← zpow_natCast, ← zpow_add₀ (by norm_num)]
    congr 1
    push_cast
    ring
  have hu : (0 : ℚ) < 10 ^ (top - (17 : ℕ) + 1) := by positivity
  calc |((rounded num den 17).digits : ℚ) * 10 ^ (rounded num den 17).scale - num / den| * 2 ^ 54
      ≤ 10 ^ (top - (17 : ℕ) + 1) / 2 * 2 ^ 54 := by gcongr
    _ < 10 ^ (top - (17 : ℕ) + 1) * 10 ^ 16 := by
        rw [div_mul_eq_mul_div, mul_div_assoc]
        exact mul_lt_mul_of_pos_left (by norm_num) hu
    _ = 10 ^ top := hunit.symm
    _ ≤ num / den := hlead

/-- What the search gives reads as the bits it was asked for, if plain rounding does. -/
theorem decimalBits_shortestOf {num den bits : ℕ}
    (h : decimalBits (rounded num den 17).digits (rounded num den 17).scale = bits) :
    decimalBits (shortestOf num den bits).digits (shortestOf num den bits).scale = bits := by
  unfold shortestOf
  generalize leadingExponent num den = top
  dsimp only
  split
  · next found hfound =>
    obtain ⟨k, -, hk⟩ := List.exists_of_findSome?_eq_some hfound
    exact decimalBits_neighbour hk
  · exact h

/-- **The shortest digits of a finite double read as its bits.** -/
theorem decimalBits_shortest {x : Float} (h : isFinite x) (hm : (parts x).mantissa ≠ 0) :
    decimalBits (shortest x).digits (shortest x).scale
      = assemble (parts x).mantissa (parts x).exponent := by
  obtain ⟨hvalue, hden⟩ := ratio_value (parts x)
  have hrounded := decimalBits_rounded (canonical_parts h) (Nat.pos_of_ne_zero hm) hden hvalue
  have hshortest : shortest x = shortestOf (parts x).ratio.1 (parts x).ratio.2
      (assemble (parts x).mantissa (parts x).exponent) := by
    rw [← magnitude_toBits h]
    rfl
  rw [hshortest]
  exact decimalBits_shortestOf hrounded

theorem shortest_digits_ne_zero {x : Float} (h : isFinite x) (hm : (parts x).mantissa ≠ 0) :
    (shortest x).digits ≠ 0 := by
  intro hzero
  have hbits := decimalBits_shortest h hm
  rw [hzero] at hbits
  have hassemble : assemble (parts x).mantissa (parts x).exponent ≠ 0 := by
    have hge := (canonical_parts h).exponent_ge
    unfold assemble
    split <;> omega
  exact hassemble hbits.symm

end Patchbay.Double
