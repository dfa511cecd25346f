import Patchbay.Proofs.Double.Bits

/-!
# The numbers that doubles are

A finite double is a rational number, an integer over a power of two.

* `exact` — the number that a finite double is
* **`sameNumber_iff_exact_eq`** — finite doubles are the same up to the sign of zero exactly if they are the
  same number
* **`exact_of_sumSquares`** — three finite doubles whose squares add up to one are a one and two zeros, up to
  signs: a sum of three squares of integers is a multiple of four only if all of them are even
  (`even_of_sumSquares`), so that no number has a denominator.  In doubles, a unit vector lies along an axis.
-/

namespace Patchbay.Double

/-- The number that a finite double is. -/
def exact (x : Float) : ℚ :=
  (if (parts x).negative then -1 else 1) * ((parts x).mantissa * 2 ^ (parts x).exponent)

theorem exact_eq_zero_iff {x : Float} : exact x = 0 ↔ (parts x).mantissa = 0 := by
  have hsign : (if (parts x).negative then (-1 : ℚ) else 1) ≠ 0 := by split <;> norm_num
  have hpow : (2 : ℚ) ^ (parts x).exponent ≠ 0 := zpow_ne_zero _ two_ne_zero
  rw [exact, mul_eq_zero, or_iff_right hsign, mul_eq_zero, or_iff_left hpow, Nat.cast_eq_zero]

theorem exact_of_isZero {x : Float} (h : IsZero x) : exact x = 0 := by
  obtain ⟨negative, rfl⟩ := h.eq_ofMagnitude
  rw [exact_eq_zero_iff]
  cases negative <;> rfl

theorem isZero_of_exact {x : Float} (h : exact x = 0) : IsZero x := isZero_of_mantissa (exact_eq_zero_iff.mp h)

theorem SameNumber.exact_eq {x y : Float} (h : SameNumber x y) : exact x = exact y := by
  rcases h with rfl | ⟨hx, hy⟩
  · rfl
  · rw [exact_of_isZero hx, exact_of_isZero hy]

theorem abs_exact (x : Float) : |exact x| = (parts x).mantissa * 2 ^ (parts x).exponent := by
  have hsign : |(if (parts x).negative then (-1 : ℚ) else 1)| = 1 := by split <;> norm_num
  rw [exact, abs_mul, hsign, one_mul, abs_of_nonneg (by positivity)]

theorem exact_neg_iff {x : Float} (h : exact x ≠ 0) : exact x < 0 ↔ (parts x).negative = true := by
  have hpos : (0 : ℚ) < (parts x).mantissa * 2 ^ (parts x).exponent := by
    rw [← abs_exact]
    exact abs_pos.mpr h
  rw [exact]
  cases (parts x).negative with
  | true => simpa using hpos
  | false => simpa using hpos.le

/-- The magnitude of a double is told by its number. -/
theorem nearestBits_abs_exact {x : Float} (hx : isFinite x) (h : exact x ≠ 0) :
    nearestBits |exact x| = assemble (parts x).mantissa (parts x).exponent := by
  refine nearestBits_of_close (canonical_parts hx) ?_
  rw [abs_exact, sub_self, abs_zero, zero_mul, ← abs_exact]
  exact abs_pos.mpr h

/-- **Finite doubles are the same, up to the sign of zero, if they are the same number.** -/
theorem sameNumber_iff_exact_eq {x y : Float} (hx : isFinite x) (hy : isFinite y) :
    SameNumber x y ↔ exact x = exact y := by
  refine ⟨SameNumber.exact_eq, fun h => ?_⟩
  by_cases hzero : exact x = 0
  · exact Or.inr ⟨isZero_of_exact hzero, isZero_of_exact (h ▸ hzero)⟩
  · left
    have hbits : assemble (parts x).mantissa (parts x).exponent =
        assemble (parts y).mantissa (parts y).exponent := by
      rw [← nearestBits_abs_exact hx hzero, ← nearestBits_abs_exact hy (h ▸ hzero), h]
    have hsign : (parts x).negative = (parts y).negative := by
      rw [Bool.eq_iff_iff, ← exact_neg_iff hzero, ← exact_neg_iff (h ▸ hzero), h]
    rw [← ofMagnitude_parts x, ← ofMagnitude_parts y, hbits, hsign]

/-! ## Sums of three squares -/

/-- The binary places that doubles have behind the point. -/
def places : ℕ := 1074

/-- The integer that a finite double is in units of the last place of all. -/
def scaled (x : Float) : ℤ :=
  (if (parts x).negative then -1 else 1) * ((parts x).mantissa * 2 ^ ((parts x).exponent + places).toNat)

theorem exact_mul_pow {x : Float} (hx : isFinite x) : exact x * 2 ^ places = scaled x := by
  have hge : 0 ≤ (parts x).exponent + places := by
    have hcanonical := (canonical_parts hx).exponent_ge
    unfold places
    omega
  have hpow : (2 : ℚ) ^ ((parts x).exponent + places).toNat = 2 ^ (parts x).exponent * 2 ^ places := by
    rw [← zpow_natCast, Int.toNat_of_nonneg hge, zpow_add₀ two_ne_zero, zpow_natCast]
  rw [exact, scaled]
  push_cast
  rw [hpow]
  split <;> ring

theorem exact_eq_zero_of_scaled {x : Float} (hx : isFinite x) (h : scaled x = 0) : exact x = 0 := by
  have hmul := exact_mul_pow hx
  rw [h, Int.cast_zero] at hmul
  exact (mul_eq_zero.mp hmul).resolve_right (pow_ne_zero _ two_ne_zero)

theorem exact_sq_mul_four_pow {x : Float} (hx : isFinite x) :
    exact x ^ 2 * 4 ^ places = ((scaled x ^ 2 : ℤ) : ℚ) := by
  have hfour : (4 : ℚ) ^ places = (2 ^ places) ^ 2 := by
    rw [← pow_mul, mul_comm, pow_mul]
    norm_num
  rw [hfour, ← mul_pow, exact_mul_pow hx, Int.cast_pow]

theorem exact_sq_of_scaled {x : Float} (hx : isFinite x) (h : scaled x ^ 2 = 4 ^ places) : exact x ^ 2 = 1 := by
  have hmul := exact_sq_mul_four_pow hx
  rw [h] at hmul
  push_cast at hmul
  exact mul_right_cancel₀ (pow_ne_zero _ four_ne_zero) (hmul.trans (one_mul _).symm)

theorem sumSquares_eq_one {a b c : ℤ} (h : a ^ 2 + b ^ 2 + c ^ 2 = 1) :
    (a ^ 2 = 1 ∧ b = 0 ∧ c = 0) ∨ (a = 0 ∧ b ^ 2 = 1 ∧ c = 0) ∨ (a = 0 ∧ b = 0 ∧ c ^ 2 = 1) := by
  have hfirst : ∀ {m n : ℤ}, m ^ 2 + n = 1 → 0 ≤ n → (m ^ 2 = 1 ∧ n = 0) ∨ (m = 0 ∧ n = 1) := by
    intro m n hsum hn
    by_cases hm : m = 0
    · exact Or.inr ⟨hm, by simpa [hm] using hsum⟩
    · have hpos : 0 < m ^ 2 := by positivity
      exact Or.inl (by omega)
  rcases hfirst ((add_assoc _ _ _).symm.trans h) (by positivity) with ⟨ha, hbc⟩ | ⟨ha, hbc⟩
  · have hb : b ^ 2 = 0 := by linarith [sq_nonneg b, sq_nonneg c]
    have hc : c ^ 2 = 0 := by linarith [sq_nonneg b, sq_nonneg c]
    exact Or.inl ⟨ha, pow_eq_zero_iff two_ne_zero |>.mp hb, pow_eq_zero_iff two_ne_zero |>.mp hc⟩
  · rcases hfirst hbc (by positivity) with ⟨hb, hc⟩ | ⟨hb, hc⟩
    · exact Or.inr (Or.inl ⟨ha, hb, pow_eq_zero_iff two_ne_zero |>.mp hc⟩)
    · exact Or.inr (Or.inr ⟨ha, hb, hc⟩)

/-- Three squares add up to a multiple of four only if all of them are even. -/
theorem even_of_sumSquares {a b c n : ℤ} (h : a ^ 2 + b ^ 2 + c ^ 2 = 4 * n) :
    (∃ m, a = 2 * m) ∧ (∃ m, b = 2 * m) ∧ ∃ m, c = 2 * m := by
  have hdouble : ∀ a b c : ZMod 4, a ^ 2 + b ^ 2 + c ^ 2 = 0 → 2 * a = 0 ∧ 2 * b = 0 ∧ 2 * c = 0 := by
    decide
  have hmod : (a : ZMod 4) ^ 2 + (b : ZMod 4) ^ 2 + (c : ZMod 4) ^ 2 = 0 := by
    have hcast := congrArg (Int.cast : ℤ → ZMod 4) h
    push_cast at hcast
    rw [hcast, (by decide : (4 : ZMod 4) = 0), zero_mul]
  have heven : ∀ n : ℤ, 2 * (n : ZMod 4) = 0 → ∃ m, n = 2 * m := by
    intro n hn
    have hdvd : (4 : ℤ) ∣ 2 * n := (ZMod.intCast_zmod_eq_zero_iff_dvd _ 4).mp (by push_cast; exact hn)
    exact ⟨n / 2, by omega⟩
  obtain ⟨ha, hb, hc⟩ := hdouble _ _ _ hmod
  exact ⟨heven a ha, heven b hb, heven c hc⟩

/-- Three squares whose sum is a power of four are that power and two zeros. -/
theorem sumSquares_eq_four_pow {k : ℕ} {a b c : ℤ} (h : a ^ 2 + b ^ 2 + c ^ 2 = 4 ^ k) :
    (a ^ 2 = 4 ^ k ∧ b = 0 ∧ c = 0) ∨ (a = 0 ∧ b ^ 2 = 4 ^ k ∧ c = 0) ∨
      (a = 0 ∧ b = 0 ∧ c ^ 2 = 4 ^ k) := by
  induction k generalizing a b c with
  | zero =>
      rw [pow_zero] at h ⊢
      exact sumSquares_eq_one h
  | succ k ih =>
      obtain ⟨⟨a, rfl⟩, ⟨b, rfl⟩, c, rfl⟩ := even_of_sumSquares (h.trans (pow_succ' 4 k))
      have hhalf : a ^ 2 + b ^ 2 + c ^ 2 = 4 ^ k := by
        have hquarter : 4 * (a ^ 2 + b ^ 2 + c ^ 2) = 4 * 4 ^ k := by
          rw [← pow_succ', ← h]
          ring
        linarith
      have hquadruple : ∀ {n : ℤ}, n ^ 2 = 4 ^ k → (2 * n) ^ 2 = 4 ^ (k + 1) := by
        intro n hn
        rw [mul_pow, hn, pow_succ]
        ring
      rcases ih hhalf with ⟨ha, rfl, rfl⟩ | ⟨rfl, hb, rfl⟩ | ⟨rfl, rfl, hc⟩
      · exact Or.inl ⟨hquadruple ha, mul_zero 2, mul_zero 2⟩
      · exact Or.inr (Or.inl ⟨mul_zero 2, hquadruple hb, mul_zero 2⟩)
      · exact Or.inr (Or.inr ⟨mul_zero 2, mul_zero 2, hquadruple hc⟩)

/-- **Three doubles whose squares add up to one are a one and two zeros, up to signs.** -/
theorem exact_of_sumSquares {x y z : Float} (hx : isFinite x) (hy : isFinite y) (hz : isFinite z)
    (h : exact x ^ 2 + exact y ^ 2 + exact z ^ 2 = 1) :
    (exact x ^ 2 = 1 ∧ exact y = 0 ∧ exact z = 0) ∨ (exact x = 0 ∧ exact y ^ 2 = 1 ∧ exact z = 0) ∨
      (exact x = 0 ∧ exact y = 0 ∧ exact z ^ 2 = 1) := by
  have hsum : scaled x ^ 2 + scaled y ^ 2 + scaled z ^ 2 = 4 ^ places := by
    have hcast : ((scaled x ^ 2 : ℤ) : ℚ) + (scaled y ^ 2 : ℤ) + (scaled z ^ 2 : ℤ) = 4 ^ places := by
      rw [← exact_sq_mul_four_pow hx, ← exact_sq_mul_four_pow hy, ← exact_sq_mul_four_pow hz, ← add_mul,
        ← add_mul, h, one_mul]
    exact_mod_cast hcast
  rcases sumSquares_eq_four_pow hsum with ⟨hx', hy', hz'⟩ | ⟨hx', hy', hz'⟩ | ⟨hx', hy', hz'⟩
  · exact Or.inl ⟨exact_sq_of_scaled hx hx', exact_eq_zero_of_scaled hy hy', exact_eq_zero_of_scaled hz hz'⟩
  · exact Or.inr (Or.inl ⟨exact_eq_zero_of_scaled hx hx', exact_sq_of_scaled hy hy',
      exact_eq_zero_of_scaled hz hz'⟩)
  · exact Or.inr (Or.inr ⟨exact_eq_zero_of_scaled hx hx', exact_eq_zero_of_scaled hy hy',
      exact_sq_of_scaled hz hz'⟩)

end Patchbay.Double
