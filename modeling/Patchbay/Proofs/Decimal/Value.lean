import Patchbay.Decimal.Basic
import Patchbay.Proofs.Double.Nearest

/-!
# Decimals as rational numbers

A finite decimal stands for a rational number, and everything that is computed with decimals is
said of that number.

* **`Decimal.value`** — the number itself; `Decimal.lt_iff` says that the order of decimals, which
  looks at leading digits first, is the order of these numbers.
* **`Decimal.rescale_eq`** — rounding to a last digit is rounding to the nearest multiple of a power
  of ten.
* **`Decimal.quantizeTo?_between`** — whatever lies between a number and its rounding has the same
  rounding.  So a rounded value may be moved into limits that the value itself lies in.
* `Decimal.rounded` — the number that rounding to some places gives
* `Decimal.Precise`, `Decimal.Held` — numbers that the working precision has all digits of, and those among them
  that are not too large for it
* **`Decimal.normalize?_held`** — a number that the working precision holds has one normal form,
  whatever decimal it was given as.
-/

namespace Patchbay

namespace Double

/-! ## Rounding to the nearest natural number -/

theorem nearest_natCast (n : ℕ) : nearest n = n := by
  refine nearest_eq_of_close (Nat.cast_nonneg n) ?_
  rw [sub_self, abs_zero]
  norm_num

/-- Rounding keeps the order. -/
theorem nearest_mono {x y : ℚ} (hx : 0 ≤ x) (hxy : x ≤ y) : nearest x ≤ nearest y := by
  rcases hxy.eq_or_lt with rfl | hlt
  · exact le_rfl
  · by_contra hcon
    have hstep : (nearest y : ℚ) + 1 ≤ nearest x := by
      exact_mod_cast Nat.succ_le_of_lt (Nat.lt_of_not_le hcon)
    have hlow := (abs_le.mp (abs_sub_nearest_le hx)).1
    have hhigh := (abs_le.mp (abs_sub_nearest_le (hx.trans hxy))).2
    linarith

/-- What lies between a number and its rounding is rounded to the same. -/
theorem nearest_eq_of_between {x y : ℚ} (hx : 0 ≤ x) (hy : 0 ≤ y)
    (h : x ≤ y ∧ y ≤ nearest x ∨ nearest x ≤ y ∧ y ≤ x) : nearest y = nearest x := by
  have hself : nearest (nearest x : ℚ) = nearest x := nearest_natCast _
  rcases h with ⟨hlow, hhigh⟩ | ⟨hlow, hhigh⟩
  · refine le_antisymm ?_ (nearest_mono hx hlow)
    exact (nearest_mono hy hhigh).trans hself.le
  · refine le_antisymm (nearest_mono hy hhigh) ?_
    exact hself.ge.trans (nearest_mono (Nat.cast_nonneg _) hlow)

end Double

namespace Decimal

/-! ## Magnitudes -/

/-- The number `c · 10^e`. -/
def magnitude (c : ℕ) (e : ℤ) : ℚ := c * 10 ^ e

theorem magnitude_nonneg (c : ℕ) (e : ℤ) : 0 ≤ magnitude c e := by
  unfold magnitude
  positivity

theorem magnitude_pos {c : ℕ} (hc : c ≠ 0) (e : ℤ) : 0 < magnitude c e := by
  unfold magnitude
  positivity

theorem magnitude_zero (e : ℤ) : magnitude 0 e = 0 := by
  unfold magnitude
  rw [Nat.cast_zero, zero_mul]

theorem magnitude_eq_zero {c : ℕ} {e : ℤ} : magnitude c e = 0 ↔ c = 0 := by
  constructor
  · intro h
    by_contra hc
    exact absurd h (magnitude_pos hc e).ne'
  · rintro rfl
    exact magnitude_zero e

/-- Digits moved into the exponent. -/
theorem magnitude_shift (c k : ℕ) (e : ℤ) : magnitude (c * 10 ^ k) e = magnitude c (e + k) := by
  unfold magnitude
  rw [zpow_add₀ (by norm_num), zpow_natCast]
  push_cast
  ring

theorem magnitude_natCast (c k : ℕ) : magnitude c k = (c * 10 ^ k : ℕ) := by
  unfold magnitude
  rw [zpow_natCast]
  push_cast
  rfl

/-- A number whose last digit is no lower than a power of ten is a multiple of it. -/
theorem exists_magnitude_sub (c : ℕ) {e scale : ℤ} (h : scale ≤ e) : ∃ k : ℕ, magnitude c (e - scale) = k := by
  obtain ⟨k, hk⟩ := Int.eq_ofNat_of_zero_le (sub_nonneg.mpr h)
  exact ⟨_, hk ▸ magnitude_natCast c k⟩

/-- A number in units of a power of ten. -/
theorem magnitude_sub (c : ℕ) (e scale : ℤ) : magnitude c (e - scale) * 10 ^ scale = magnitude c e := by
  unfold magnitude
  rw [mul_assoc, ← zpow_add₀ (by norm_num), sub_add_cancel]

theorem magnitude_sub_congr {c d : ℕ} {e f : ℤ} (h : magnitude c e = magnitude d f) (scale : ℤ) :
    magnitude c (e - scale) = magnitude d (f - scale) := by
  have hpos : (10 : ℚ) ^ scale ≠ 0 := by positivity
  refine mul_right_cancel₀ hpos ?_
  rw [magnitude_sub, magnitude_sub, h]

/-- A number between the powers of ten around its leading digit. -/
theorem leading_bounds {c : ℕ} (hc : c ≠ 0) (e : ℤ) :
    (10 : ℚ) ^ leading c e ≤ magnitude c e ∧ magnitude c e < 10 ^ (leading c e + 1) := by
  obtain ⟨hlow, hhigh⟩ := Double.decimal_bounds hc e
  have hexp : (Text.digitCount c : ℤ) + e - 1 = leading c e := by
    unfold leading
    ring
  have hexp' : (Text.digitCount c : ℤ) + e = leading c e + 1 := by
    unfold leading
    ring
  rw [hexp] at hlow
  rw [hexp'] at hhigh
  exact ⟨hlow, hhigh⟩

theorem lt_of_pow_le_of_lt_pow {a b : ℤ} {x : ℚ} (hlow : (10 : ℚ) ^ a ≤ x) (hhigh : x < 10 ^ b) :
    a < b :=
  (zpow_lt_zpow_iff_right₀ (by norm_num : (1 : ℚ) < 10)).mp (hlow.trans_lt hhigh)

/-- A larger number has no smaller leading digit. -/
theorem leading_mono {c d : ℕ} {e f : ℤ} (hc : c ≠ 0) (h : magnitude c e ≤ magnitude d f) :
    leading c e ≤ leading d f := by
  have hd : d ≠ 0 := by
    rintro rfl
    rw [magnitude_zero] at h
    exact absurd (magnitude_pos hc e) (not_lt_of_ge h)
  have hlt := lt_of_pow_le_of_lt_pow ((leading_bounds hc e).1.trans h) (leading_bounds hd f).2
  omega

theorem leading_congr {c d : ℕ} {e f : ℤ} (hc : c ≠ 0) (h : magnitude c e = magnitude d f) :
    leading c e = leading d f := by
  have hd : d ≠ 0 := by
    rintro rfl
    exact hc (magnitude_eq_zero.mp (h.trans (magnitude_zero f)))
  exact le_antisymm (leading_mono hc h.le) (leading_mono hd h.ge)

/-! ## Order -/

/-- The number that a finite decimal stands for. -/
def value : Decimal → ℚ
  | finite negative c e => if negative then -magnitude c e else magnitude c e
  | _ => 0

@[simp] theorem value_positive (c : ℕ) (e : ℤ) : (finite false c e).value = magnitude c e := rfl

@[simp] theorem value_negative (c : ℕ) (e : ℤ) : (finite true c e).value = -magnitude c e := rfl

/-- Comparing the exponents of the leading digits first compares the numbers. -/
theorem compareMagnitude_eq {c₁ c₂ : ℕ} (h₁ : c₁ ≠ 0) (h₂ : c₂ ≠ 0) (e₁ e₂ : ℤ) :
    compareMagnitude c₁ e₁ c₂ e₂ = compare (magnitude c₁ e₁) (magnitude c₂ e₂) := by
  unfold compareMagnitude
  rcases lt_trichotomy (leading c₁ e₁) (leading c₂ e₂) with hlt | heq | hgt
  · rw [compare_lt_iff_lt.mpr hlt]
    refine (compare_lt_iff_lt.mpr ?_).symm
    calc magnitude c₁ e₁ < 10 ^ (leading c₁ e₁ + 1) := (leading_bounds h₁ e₁).2
      _ ≤ 10 ^ leading c₂ e₂ := zpow_le_zpow_right₀ (by norm_num) (by omega)
      _ ≤ magnitude c₂ e₂ := (leading_bounds h₂ e₂).1
  · rw [heq, compare_eq_iff_eq.mpr rfl]
    dsimp only
    generalize hlow : min e₁ e₂ = low
    obtain ⟨k₁, hk₁⟩ := Int.eq_ofNat_of_zero_le (by omega : 0 ≤ e₁ - low)
    obtain ⟨k₂, hk₂⟩ := Int.eq_ofNat_of_zero_le (by omega : 0 ≤ e₂ - low)
    rw [hk₁, hk₂, Int.toNat_natCast, Int.toNat_natCast]
    have hpos : (0 : ℚ) < 10 ^ low := by positivity
    -- both numbers in units of the lower of the two exponents
    have hm₁ : magnitude c₁ e₁ = ((c₁ * 10 ^ k₁ : ℕ) : ℚ) * 10 ^ low := by
      rw [← magnitude, magnitude_shift, ← hk₁]
      congr 1
      ring
    have hm₂ : magnitude c₂ e₂ = ((c₂ * 10 ^ k₂ : ℕ) : ℚ) * 10 ^ low := by
      rw [← magnitude, magnitude_shift, ← hk₂]
      congr 1
      ring
    rw [hm₁, hm₂]
    generalize (c₁ * 10 ^ k₁ : ℕ) = a
    generalize (c₂ * 10 ^ k₂ : ℕ) = b
    rcases lt_trichotomy a b with hlt | rfl | hgt
    · rw [compare_lt_iff_lt.mpr hlt]
      refine (compare_lt_iff_lt.mpr ?_).symm
      exact mul_lt_mul_of_pos_right (by exact_mod_cast hlt) hpos
    · rw [compare_eq_iff_eq.mpr rfl, compare_eq_iff_eq.mpr rfl]
    · rw [compare_gt_iff_gt.mpr hgt]
      refine (compare_gt_iff_gt.mpr ?_).symm
      exact mul_lt_mul_of_pos_right (by exact_mod_cast hgt) hpos
  · rw [compare_gt_iff_gt.mpr hgt]
    refine (compare_gt_iff_gt.mpr ?_).symm
    calc magnitude c₂ e₂ < 10 ^ (leading c₂ e₂ + 1) := (leading_bounds h₂ e₂).2
      _ ≤ 10 ^ leading c₁ e₁ := zpow_le_zpow_right₀ (by norm_num) (by omega)
      _ ≤ magnitude c₁ e₁ := (leading_bounds h₁ e₁).1

/-- Comparing finite decimals compares the numbers they stand for. -/
theorem compare?_eq {n₁ n₂ : Bool} {c₁ c₂ : ℕ} {e₁ e₂ : ℤ} :
    compare? (finite n₁ c₁ e₁) (finite n₂ c₂ e₂) =
      some (compare (finite n₁ c₁ e₁).value (finite n₂ c₂ e₂).value) := by
  have hneg : ∀ x y : ℚ, compare (-x) (-y) = compare y x := by
    intro x y
    rcases lt_trichotomy y x with h | h | h
    · rw [compare_lt_iff_lt.mpr h, compare_lt_iff_lt.mpr (neg_lt_neg h)]
    · rw [h, compare_eq_iff_eq.mpr rfl, compare_eq_iff_eq.mpr rfl]
    · rw [compare_gt_iff_gt.mpr h, compare_gt_iff_gt.mpr (neg_lt_neg h)]
  unfold compare?
  dsimp only
  congr 1
  by_cases h₁ : c₁ = 0
  · subst h₁
    by_cases h₂ : c₂ = 0
    · subst h₂
      cases n₁ <;> cases n₂ <;> simp [magnitude_zero]
    · have hpos := magnitude_pos h₂ e₂
      have hlt := compare_lt_iff_lt.mpr hpos
      have hgt := compare_gt_iff_gt.mpr (neg_lt_zero.mpr hpos)
      cases n₁ <;> cases n₂ <;> simp [h₂, magnitude_zero, hlt, hgt]
  · have hpos₁ := magnitude_pos h₁ e₁
    by_cases h₂ : c₂ = 0
    · subst h₂
      have hgt := compare_gt_iff_gt.mpr hpos₁
      have hlt := compare_lt_iff_lt.mpr (neg_lt_zero.mpr hpos₁)
      cases n₁ <;> cases n₂ <;> simp [h₁, magnitude_zero, hlt, hgt]
    · have hpos₂ := magnitude_pos h₂ e₂
      rw [if_neg h₁, if_neg h₂]
      cases n₁ <;> cases n₂ <;> dsimp only [value_positive, value_negative]
      · exact compareMagnitude_eq h₁ h₂ e₁ e₂
      · exact (compare_gt_iff_gt.mpr (by linarith)).symm
      · exact (compare_lt_iff_lt.mpr (by linarith)).symm
      · rw [compareMagnitude_eq h₂ h₁, hneg]

/-- The order of finite decimals is the order of the numbers they stand for. -/
theorem lt_iff {n₁ n₂ : Bool} {c₁ c₂ : ℕ} {e₁ e₂ : ℤ} :
    (finite n₁ c₁ e₁).lt (finite n₂ c₂ e₂) = true ↔
      (finite n₁ c₁ e₁).value < (finite n₂ c₂ e₂).value := by
  rw [lt, compare?_eq, beq_iff_eq, Option.some_inj, compare_lt_iff_lt]

/-- Rounding to a last digit at `10^scale` is rounding in units of `10^scale`. -/
theorem rescale_eq (c : ℕ) (e scale : ℤ) :
    rescale c e scale = Double.nearest (magnitude c (e - scale)) := by
  unfold rescale
  split
  · next h =>
    obtain ⟨k, hk⟩ := Int.eq_ofNat_of_zero_le (by omega : 0 ≤ e - scale)
    rw [hk, Int.toNat_natCast]
    exact ((congrArg Double.nearest (magnitude_natCast c k)).trans (Double.nearest_natCast _)).symm
  · next h =>
    split
    · next hfar =>
      -- the number is less than a tenth of the unit
      by_cases hc : c = 0
      · subst hc
        rw [magnitude_zero]
        exact (Double.nearest_natCast 0).symm.trans (by rw [Nat.cast_zero])
      · have hsmall : magnitude c (e - scale) < 10 ^ (-1 : ℤ) := by
          have hlead : leading c (e - scale) + 1 ≤ -1 := by
            unfold leading at hfar ⊢
            omega
          exact (leading_bounds hc _).2.trans_le (zpow_le_zpow_right₀ (by norm_num) hlead)
        refine (Double.nearest_eq_of_close (magnitude_nonneg _ _) ?_).symm
        rw [Nat.cast_zero, sub_zero, abs_of_nonneg (magnitude_nonneg _ _)]
        refine hsmall.trans ?_
        norm_num
    · obtain ⟨k, hk⟩ := Int.eq_ofNat_of_zero_le (by omega : 0 ≤ scale - e)
      rw [hk, Int.toNat_natCast]
      refine (Double.roundHalfEven_eq_nearest c (by positivity)).trans ?_
      congr 1
      have hexp : e - scale = -(k : ℤ) := by omega
      rw [magnitude, hexp, zpow_neg, zpow_natCast, div_eq_mul_inv]
      push_cast
      rfl

/-- The multiple of `10^-places` that is nearest to a number; of two, the one with the even digit at its end. -/
def rounded (places : ℕ) (x : ℚ) : ℚ :=
  if x < 0 then -magnitude (Double.nearest (-x * 10 ^ places)) (-places)
  else magnitude (Double.nearest (x * 10 ^ places)) (-places)

/-- A number with no more places than that is its own rounding. -/
theorem rounded_eq_self {places : ℕ} {x : ℚ} {k : ℤ} (h : x = k * 10 ^ (-places : ℤ)) : rounded places x = x := by
  have hpos : (0 : ℚ) < 10 ^ (-places : ℤ) := by positivity
  have hunit : x * 10 ^ places = k := by
    rw [h, mul_assoc, ← zpow_natCast, ← zpow_add₀ (by norm_num), neg_add_cancel, zpow_zero, mul_one]
  unfold rounded
  split
  · next hneg =>
    have hk : k < 0 := by
      have hlt : (k : ℚ) * 10 ^ (-places : ℤ) < 0 := h ▸ hneg
      exact_mod_cast neg_of_mul_neg_left hlt hpos.le
    obtain ⟨n, hn⟩ := Int.eq_ofNat_of_zero_le (by omega : 0 ≤ -k)
    have hcast : -x * 10 ^ places = (n : ℚ) := by
      rw [neg_mul, hunit, ← Int.cast_neg, hn]
      rfl
    rw [hcast, Double.nearest_natCast, h, magnitude, ← neg_mul]
    congr 1
    have hk' : k = -(n : ℤ) := by omega
    rw [hk']
    push_cast
    rfl
  · next hpositive =>
    have hk : 0 ≤ k := by
      have hle : 0 ≤ (k : ℚ) * 10 ^ (-places : ℤ) := h ▸ not_lt.mp hpositive
      exact_mod_cast nonneg_of_mul_nonneg_left hle hpos
    obtain ⟨n, rfl⟩ := Int.eq_ofNat_of_zero_le hk
    rw [hunit, Int.cast_natCast, Double.nearest_natCast, h]
    rfl

/-- When a number that is not zero can be rounded, and what to. -/
theorem quantizeTo?_eq_some_iff {negative : Bool} {c : ℕ} {e scale : ℤ} {q : Decimal} (hc : c ≠ 0) :
    quantizeTo? scale (finite negative c e) = some q ↔
      (leading c e ≤ maxExponent ∧ leading c e - scale + 1 ≤ precision) ∧
      (Text.digitCount (Double.nearest (magnitude c (e - scale))) ≤ precision ∧
        leading (Double.nearest (magnitude c (e - scale))) scale ≤ maxExponent) ∧
      q = finite negative (Double.nearest (magnitude c (e - scale))) scale := by
  unfold quantizeTo?
  dsimp only
  rw [if_neg hc, rescale_eq, Option.ite_none_left_eq_some, Option.ite_none_left_eq_some,
    Option.some.injEq, eq_comm (a := q)]
  simp only [Bool.or_eq_true, decide_eq_true_eq, not_or, not_lt]

theorem quantizeTo?_eq_some {negative : Bool} {c : ℕ} {e scale : ℤ} {q : Decimal}
    (h : quantizeTo? scale (finite negative c e) = some q) :
    q = finite negative (Double.nearest (magnitude c (e - scale))) scale := by
  by_cases hc : c = 0
  · subst hc
    rw [magnitude_zero, ← Nat.cast_zero, Double.nearest_natCast]
    exact (Option.some.inj h).symm
  · exact ((quantizeTo?_eq_some_iff hc).mp h).2.2

/-- Rounding a decimal rounds the number that it stands for. -/
theorem value_of_quantizeTo? {negative : Bool} {c places : ℕ} {e : ℤ} {q : Decimal}
    (h : quantizeTo? (-places) (finite negative c e) = some q) :
    q.value = rounded places (finite negative c e).value := by
  have hunit : magnitude c (e - -(places : ℤ)) = magnitude c e * 10 ^ places := by
    unfold magnitude
    rw [sub_neg_eq_add, zpow_add₀ (by norm_num), zpow_natCast, mul_assoc]
  rw [quantizeTo?_eq_some h, hunit]
  unfold rounded
  cases negative with
  | false => rw [value_positive, value_positive, if_neg (not_lt.mpr (magnitude_nonneg c e))]
  | true =>
      rw [value_negative, value_negative, neg_neg]
      split
      · rfl
      · next hneg =>
        have hzero : magnitude c e = 0 := by
          have hnonneg := magnitude_nonneg c e
          linarith
        rw [hzero, neg_zero, zero_mul, ← Nat.cast_zero, Double.nearest_natCast, magnitude_zero, neg_zero]

/-- Whatever lies between a number and its rounding can be rounded, and has the same rounding. -/
theorem quantizeTo?_between {negative : Bool} {c d r : ℕ} {e f scale : ℤ}
    (h : quantizeTo? scale (finite negative c e) = some (finite negative r scale)) (hd : d ≠ 0)
    (hbetween : magnitude c e ≤ magnitude d f ∧ magnitude d f ≤ magnitude r scale ∨
      magnitude r scale ≤ magnitude d f ∧ magnitude d f ≤ magnitude c e) :
    quantizeTo? scale (finite negative d f) = some (finite negative r scale) := by
  have hr : Double.nearest (magnitude c (e - scale)) = r := by
    have hsame := quantizeTo?_eq_some h
    simpa using hsame.symm
  have hpos : (0 : ℚ) < 10 ^ scale := by positivity
  have hrunit : magnitude r scale = (r : ℚ) * 10 ^ scale := rfl
  have hround : Double.nearest (magnitude d (f - scale)) = r := by
    rw [← hr]
    refine Double.nearest_eq_of_between (magnitude_nonneg _ _) (magnitude_nonneg _ _) ?_
    rw [hr]
    -- in units of the last digit
    rw [← magnitude_sub c e scale, ← magnitude_sub d f scale, hrunit] at hbetween
    rcases hbetween with ⟨hlow, hhigh⟩ | ⟨hlow, hhigh⟩
    · exact Or.inl ⟨le_of_mul_le_mul_right hlow hpos, le_of_mul_le_mul_right hhigh hpos⟩
    · exact Or.inr ⟨le_of_mul_le_mul_right hlow hpos, le_of_mul_le_mul_right hhigh hpos⟩
  have hc : c ≠ 0 := by
    rintro rfl
    have hzero : r = 0 := by
      rw [← hr, magnitude_zero, ← Nat.cast_zero, Double.nearest_natCast]
    subst hzero
    rw [magnitude_zero, magnitude_zero] at hbetween
    have hdzero : magnitude d f = 0 := by
      rcases hbetween with ⟨hlow, hhigh⟩ | ⟨hlow, hhigh⟩ <;> exact le_antisymm hhigh hlow
    exact hd (magnitude_eq_zero.mp hdzero)
  obtain ⟨hfits, hfits', -⟩ := (quantizeTo?_eq_some_iff hc).mp h
  rw [hr] at hfits'
  refine (quantizeTo?_eq_some_iff hd).mpr ⟨?_, hround.symm ▸ hfits', by rw [hround]⟩
  -- the leading digit is no higher than that of the larger one of the two
  rcases hbetween with ⟨-, hhigh⟩ | ⟨-, hhigh⟩
  · have hle := leading_mono hd hhigh
    have hcount : leading r scale - scale + 1 = Text.digitCount r := by
      unfold leading
      ring
    omega
  · have hle := leading_mono hd hhigh
    omega

/-! ## Normal forms -/

theorem stripZeros_magnitude (fuel c : ℕ) (e : ℤ) :
    magnitude (stripZeros fuel c e).1 (stripZeros fuel c e).2 = magnitude c e := by
  induction fuel generalizing c e with
  | zero => rfl
  | succ fuel ih =>
      rw [stripZeros]
      split
      · next hc =>
        rw [ih]
        have hten : c = c / 10 * 10 ^ 1 := by omega
        conv_rhs => rw [hten, magnitude_shift]
        rfl
      · rfl

theorem stripZeros_scale (fuel c : ℕ) (e : ℤ) : e ≤ (stripZeros fuel c e).2 := by
  induction fuel generalizing c e with
  | zero => exact le_rfl
  | succ fuel ih =>
      rw [stripZeros]
      split
      · exact (Int.le_add_one le_rfl).trans (ih _ _)
      · exact le_rfl

/-- As many steps as there are digits take away all zeros. -/
theorem stripZeros_bare {fuel c : ℕ} (hc : c ≠ 0) (h : c < 10 ^ fuel) (e : ℤ) :
    (stripZeros fuel c e).1 % 10 ≠ 0 := by
  induction fuel generalizing c e with
  | zero =>
      rw [pow_zero] at h
      omega
  | succ fuel ih =>
      rw [stripZeros]
      split
      · next hten =>
        rw [pow_succ] at h
        exact ih (by omega) (by omega) _
      · next hten => exact hten

/-- A number is written in one way without zeros at its end. -/
theorem eq_of_magnitude_eq {c d : ℕ} {e f : ℤ} (hc : c % 10 ≠ 0) (hd : d % 10 ≠ 0)
    (h : magnitude c e = magnitude d f) : c = d ∧ e = f := by
  -- the one with the larger exponent would end in a zero
  have hlt : ∀ {c d : ℕ} {e f : ℤ}, c % 10 ≠ 0 → magnitude c e = magnitude d f → f ≤ e := by
    intro c d e f hc h
    by_contra hcon
    obtain ⟨k, hk⟩ := Int.eq_ofNat_of_zero_le (by omega : 0 ≤ f - e)
    obtain ⟨j, rfl⟩ : ∃ j, k = j + 1 := ⟨k - 1, by omega⟩
    have hexp : f = e + (j + 1 : ℕ) := by omega
    rw [hexp, ← magnitude_shift] at h
    have hpos : (10 : ℚ) ^ e ≠ 0 := by positivity
    have hnat : c = d * 10 ^ (j + 1) := by exact_mod_cast mul_right_cancel₀ hpos h
    rw [hnat, pow_succ, ← mul_assoc, Nat.mul_mod_left] at hc
    exact hc rfl
  have hexp : e = f := le_antisymm (hlt hd h.symm) (hlt hc h)
  subst hexp
  have hpos : (10 : ℚ) ^ e ≠ 0 := by positivity
  exact ⟨by exact_mod_cast mul_right_cancel₀ hpos h, rfl⟩

/-- The working precision holds a number: it has no more significant digits than that, and lies in
the range of rounded results. -/
def Held (x : ℚ) : Prop :=
  ∃ (c : ℕ) (e : ℤ), c < 10 ^ precision ∧ minScale ≤ e ∧ leading c e ≤ maxExponent ∧
    |x| = magnitude c e

/-- The working precision has all digits of a number: there are no more of them than that, and none stands
after the last place that a rounded result may have. -/
def Precise (x : ℚ) : Prop := ∃ (c : ℕ) (e : ℤ), c < 10 ^ precision ∧ minScale ≤ e ∧ |x| = magnitude c e

theorem abs_value (negative : Bool) (c : ℕ) (e : ℤ) : |(finite negative c e).value| = magnitude c e := by
  cases negative with
  | true => rw [value_negative, abs_neg, abs_of_nonneg (magnitude_nonneg c e)]
  | false => rw [value_positive, abs_of_nonneg (magnitude_nonneg c e)]

theorem precise_digits {negative : Bool} {c : ℕ} {e : ℤ} (hc : c < 10 ^ precision) (he : minScale ≤ e) :
    Precise (finite negative c e).value :=
  ⟨c, e, hc, he, abs_value negative c e⟩

/-- What has a normal form lies in the range of rounded results: rounding does not make a number shorter. -/
theorem leading_le_of_normalize? {negative : Bool} {c : ℕ} {e : ℤ} {n : Decimal} (hc : c ≠ 0)
    (h : normalize? (finite negative c e) = some n) : leading c e ≤ maxExponent := by
  unfold normalize? at h
  dsimp only at h
  rw [if_neg hc] at h
  generalize hscale : max (max e (leading c e - precision + 1)) minScale = scale at h
  split at h
  · cases h
  · next hfits =>
    by_contra hfar
    have hdigit : e ≤ leading c e := by
      have hpos := List.length_pos_iff.mpr (Text.digitsOfNat_ne_nil c)
      unfold leading Text.digitCount
      omega
    have hmin : minScale ≤ maxExponent := by decide
    have hprecision : 0 < precision := by decide
    obtain ⟨k, hk⟩ := Int.eq_ofNat_of_zero_le (by omega : 0 ≤ leading c e - scale)
    -- the power of ten at the leading digit is no further away than what the number is rounded to
    have hlow : ((10 ^ k : ℕ) : ℚ) ≤ magnitude c (e - scale) := by
      have hshift : leading c (e - scale) = k := by
        unfold leading at hk ⊢
        omega
      have hbound := (leading_bounds hc (e - scale)).1
      rw [hshift, zpow_natCast] at hbound
      exact_mod_cast hbound
    have hle : magnitude (10 ^ k) scale ≤ magnitude (rescale c e scale) scale := by
      have hmono := Double.nearest_mono (Nat.cast_nonneg _) hlow
      rw [Double.nearest_natCast, ← rescale_eq] at hmono
      exact mul_le_mul_of_nonneg_right (by exact_mod_cast hmono) (by positivity)
    have hpower : leading (10 ^ k) scale = leading c e := by
      have hshift := magnitude_shift 1 k scale
      rw [Nat.one_mul] at hshift
      rw [leading_congr (by positivity) hshift]
      have hone : Text.digitCount 1 = 1 := rfl
      unfold leading at hk ⊢
      omega
    have hmono := leading_mono (by positivity) hle
    omega

theorem Held.precise {x : ℚ} (h : Held x) : Precise x := by
  obtain ⟨c, e, hprecision, hscale, -, habs⟩ := h
  exact ⟨c, e, hprecision, hscale, habs⟩

/-- A number that the working precision has all digits of is held if it is not too large. -/
theorem Precise.held {negative : Bool} {c : ℕ} {e : ℤ} (h : Precise (finite negative c e).value)
    (hrange : c ≠ 0 → leading c e ≤ maxExponent) : Held (finite negative c e).value := by
  obtain ⟨i, j, hprecision, hscale, habs⟩ := h
  by_cases hc : c = 0
  · subst hc
    exact ⟨0, 0, by decide, by decide, by decide, by rw [abs_value, magnitude_zero, magnitude_zero]⟩
  · rw [abs_value] at habs
    refine ⟨i, j, hprecision, hscale, ?_, (abs_value negative c e).trans habs⟩
    rw [← leading_congr hc habs]
    exact hrange hc

/-- A number that is held has a normal form, which is the number without zeros at its end. -/
theorem normalize?_held {negative : Bool} {c : ℕ} {e : ℤ} (hc : c ≠ 0)
    (h : Held (finite negative c e).value) :
    ∃ d f, normalize? (finite negative c e) = some (finite negative d f) ∧ d % 10 ≠ 0 ∧
      magnitude d f = magnitude c e ∧ minScale ≤ f ∧ leading d f ≤ maxExponent := by
  obtain ⟨i, j, hprecision, hscale, hexponent, habs⟩ := h
  have hsame : magnitude c e = magnitude i j := (abs_value negative c e).symm.trans habs
  have hi : i ≠ 0 := by
    rintro rfl
    exact hc (magnitude_eq_zero.mp (hsame.trans (magnitude_zero j)))
  have hlead : leading c e = leading i j := leading_congr hc hsame
  have hdigits : Text.digitCount i ≤ precision :=
    (Nat.length_toDigits_le_iff (by decide) (by decide)).mpr hprecision
  unfold normalize?
  dsimp only
  rw [if_neg hc]
  generalize hrounded : max (max e (leading c e - precision + 1)) minScale = scale
  -- the last digit is no lower than that of the number itself
  have hexact : ∃ k : ℕ, magnitude c (e - scale) = k := by
    by_cases he : scale ≤ e
    · exact exists_magnitude_sub c he
    · rw [magnitude_sub_congr hsame]
      refine exists_magnitude_sub i ?_
      have hleading : leading i j - precision + 1 ≤ j := by
        unfold leading
        omega
      omega
  obtain ⟨k, hk⟩ := hexact
  rw [rescale_eq, hk, Double.nearest_natCast]
  have hvalue : magnitude k scale = magnitude c e := by
    rw [magnitude, ← hk]
    exact magnitude_sub c e scale
  have hk0 : k ≠ 0 := by
    rintro rfl
    exact hc (magnitude_eq_zero.mp (hvalue.symm.trans (magnitude_zero scale)))
  have hleadk : leading k scale = leading i j := leading_congr hk0 (hvalue.trans hsame)
  rw [if_neg (by omega), if_neg hk0]
  have hstripped := stripZeros_magnitude (Text.digitCount k) k scale
  have hbare := stripZeros_bare hk0 (Text.lt_pow_digitCount k) scale
  have hfinal := stripZeros_scale (Text.digitCount k) k scale
  generalize stripZeros (Text.digitCount k) k scale = out at hstripped hbare hfinal
  obtain ⟨d, f⟩ := out
  dsimp only at hstripped hbare hfinal
  have hd : d ≠ 0 := by
    rintro rfl
    exact hbare rfl
  refine ⟨d, f, rfl, hbare, hstripped.trans hvalue, by omega, ?_⟩
  rw [leading_congr hd (hstripped.trans (hvalue.trans hsame))]
  exact hexponent

end Decimal

end Patchbay
