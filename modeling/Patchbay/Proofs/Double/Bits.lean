import Patchbay.Proofs.Double.Nearest
import Mathlib

/-!
# Doubles and their bits

The bits of a double are a sign, eleven bits of exponent and fifty-two of mantissa.  Lean's own
doubles are such words with one undefined value, so what the bits say about a double is provable.

* **`toBits_eq`** — the bits of a finite double are the sign and the bits that `assemble` makes
  from its `parts`; hence `ofMagnitude_assemble`, the way back.
* **`SameNumber`** — equality up to the sign of zero, which is what comes back from a text;
  `SameNumber.beq` is its meaning for finite doubles.
-/

namespace Patchbay.Double

open Float.Model UnpackedFloat

/-! ## Parts -/

/-- The parts of a finite double are as finite doubles have them. -/
theorem canonical_parts {x : Float} (h : isFinite x) :
    Canonical (parts x).mantissa (parts x).exponent := by
  have hfield : x.toBits.toNat / 2 ^ 52 % 2 ^ 11 ≠ 0x7FF := by simpa [isFinite] using h
  unfold parts
  dsimp only
  split
  · refine ⟨?_, ?_, ?_, ?_⟩ <;> dsimp only <;> omega
  · refine ⟨?_, ?_, ?_, ?_⟩ <;> dsimp only [Int.ofNat_eq_natCast] <;> omega

/-- The bits of a double are its sign and what `assemble` makes of its other parts. -/
theorem toBits_eq (x : Float) :
    x.toBits.toNat = assemble (parts x).mantissa (parts x).exponent
      + if (parts x).negative then 2 ^ 63 else 0 := by
  have hlt : x.toBits.toNat < 2 ^ 64 := x.toBits.toNat_lt
  unfold parts assemble
  dsimp only
  generalize x.toBits.toNat = w at hlt
  have hsign : (if (w / 2 ^ 63 == 1) = true then 2 ^ 63 else 0) = w / 2 ^ 63 * 2 ^ 63 := by
    rcases (by omega : w / 2 ^ 63 = 0 ∨ w / 2 ^ 63 = 1) with h | h <;> rw [h] <;> rfl
  split
  · next h =>
    dsimp only
    rw [if_pos (by omega), hsign]
    omega
  · next h =>
    dsimp only [Int.ofNat_eq_natCast]
    rw [if_neg (by omega), hsign]
    omega

/-- The bits of the magnitude of a double. -/
theorem magnitude_toBits {x : Float} (h : isFinite x) :
    x.toBits.toNat % 2 ^ 63 = assemble (parts x).mantissa (parts x).exponent := by
  have hlt := assemble_lt (canonical_parts h)
  unfold infinityBits at hlt
  rw [toBits_eq]
  split <;> omega

/-- **A finite double is put together from its parts.** -/
theorem ofMagnitude_parts (x : Float) :
    ofMagnitude (parts x).negative (assemble (parts x).mantissa (parts x).exponent) = x := by
  have hbits : (if (parts x).negative
      then assemble (parts x).mantissa (parts x).exponent + 2 ^ 63
      else assemble (parts x).mantissa (parts x).exponent) = x.toBits.toNat := by
    rw [toBits_eq]
    split <;> rfl
  rw [ofMagnitude, hbits, UInt64.ofNat_toNat, Float.ofBits_toBits]

theorem ratio_value (p : Parts) :
    ((p.ratio.1 : ℚ) / p.ratio.2 = p.mantissa * 2 ^ p.exponent) ∧ p.ratio.2 ≠ 0 := by
  unfold Parts.ratio
  split
  · next h =>
    obtain ⟨n, hn⟩ := Int.eq_ofNat_of_zero_le h
    simp [hn]
  · next h =>
    obtain ⟨n, hn⟩ := Int.eq_ofNat_of_zero_le (by omega : 0 ≤ -p.exponent)
    have he : p.exponent = -(n : ℤ) := by omega
    simp [he, div_eq_mul_inv]

/-! ## Equality -/

/-- One of the two zeros. -/
def IsZero (x : Float) : Prop := ∃ s, x.toModel.unpack = .zero s

theorem beq_of_isZero {x y : Float} (hx : IsZero x) (hy : IsZero y) : (x == y) = true := by
  obtain ⟨s, hs⟩ := hx
  obtain ⟨t, ht⟩ := hy
  show x.toModel.unpack.beq y.toModel.unpack = true
  rw [hs, ht]
  rfl

theorem isZero_ofMagnitude (negative : Bool) : IsZero (ofMagnitude negative 0) := by
  cases negative with
  | false => exact ⟨.positive, rfl⟩
  | true => exact ⟨.negative, rfl⟩

theorem isZero_of_mantissa {x : Float} (hm : (parts x).mantissa = 0) : IsZero x := by
  have hx := ofMagnitude_parts x
  have he : assemble (parts x).mantissa (parts x).exponent = 0 := by
    rw [hm]
    rfl
  rw [he] at hx
  rw [← hx]
  exact isZero_ofMagnitude _

/-- The two zeros are the only ones. -/
theorem IsZero.eq_ofMagnitude {x : Float} (h : IsZero x) :
    ∃ negative, x = ofMagnitude negative 0 := by
  obtain ⟨s, hs⟩ := h
  have hx : x = .ofModel (.pack (.zero s)) := by
    rw [← hs]
    exact (Float.ofBits_toBits x).symm
  cases s with
  | positive => exact ⟨false, hx.trans rfl⟩
  | negative => exact ⟨true, hx.trans rfl⟩

/-- A finite double is not undefined. -/
theorem ne_nan_of_isFinite {x : Float} (h : isFinite x) : x ≠ Float.nan := by
  rintro rfl
  revert h
  decide

/-- A finite double equals itself. -/
theorem beq_self {x : Float} (h : isFinite x) : (x == x) = true :=
  Float.beq_self_iff.mpr (ne_nan_of_isFinite h)

theorem isNaN_of_isFinite {x : Float} (h : isFinite x) : x.isNaN = false := by
  rw [Float.isNaN_eq_decide_eq_nan]
  exact decide_eq_false (ne_nan_of_isFinite h)

/-- Equal doubles, where the two zeros are one number: what numeric equality of doubles that are
not undefined means. -/
def SameNumber (x y : Float) : Prop := x = y ∨ (IsZero x ∧ IsZero y)

theorem SameNumber.refl (x : Float) : SameNumber x x := Or.inl rfl

theorem SameNumber.symm {x y : Float} (h : SameNumber x y) : SameNumber y x := h.imp Eq.symm And.symm

theorem SameNumber.trans {x y z : Float} (h : SameNumber x y) (h' : SameNumber y z) : SameNumber x z := by
  rcases h with rfl | ⟨hx, hy⟩
  · exact h'
  · rcases h' with rfl | ⟨-, hz⟩
    · exact Or.inr ⟨hx, hy⟩
    · exact Or.inr ⟨hx, hz⟩

instance (x : Float) : Decidable (IsZero x) :=
  decidable_of_iff (∃ negative, x = ofMagnitude negative 0)
    ⟨fun ⟨negative, h⟩ => h ▸ isZero_ofMagnitude negative, IsZero.eq_ofMagnitude⟩

instance (x y : Float) : Decidable (SameNumber x y) :=
  inferInstanceAs (Decidable (x = y ∨ (IsZero x ∧ IsZero y)))

theorem SameNumber.finite {x y : Float} (h : SameNumber x y) (hy : isFinite y) :
    isFinite x := by
  rcases h with rfl | ⟨hx, -⟩
  · exact hy
  · obtain ⟨n, rfl⟩ := hx.eq_ofMagnitude
    cases n <;> decide

theorem SameNumber.beq {x y : Float} (h : SameNumber x y) (hy : isFinite y) : (x == y) = true := by
  rcases h with rfl | ⟨hx, hy⟩
  · exact beq_self hy
  · exact beq_of_isZero hx hy

end Patchbay.Double
