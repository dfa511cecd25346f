import Patchbay.Proofs.Double.Exact
import Patchbay.Proofs.Token.RoundTrip
import Mathlib

/-!
# Planes that are turned in themselves

What the axes of a plane say beyond its normal.  Doubles are numbers here, and vectors are triples of them,
so that nothing is rounded.

* `Vector.exact`, `Arc.pointAt` — the vector that a record stands for, and the points of an arc
* **`Vector.exists_axis`** — a record that stands for a unit vector lies along an axis of the world.  So there
  are only twenty-four orthonormal planes at a point, and the arithmetic of doubles is exact on all of them.
* `Plane.TurnedBy` — a plane whose axes are those of another one, turned by an angle.
  **`Arc.pointAt_turned`**: the points of an arc are further along by that angle.
* **`Plane.Orthonormal.fromNormal`** — the plane across the normal of an orthonormal plane is that plane, turned
  by a number of right angles.  It is none exactly if the first axis is kept (`xAxis_same_iff`).
-/

namespace Patchbay

open Double Real
open scoped Matrix

/-! ## Vectors as triples of numbers -/

namespace Vector

/-- The vector that a record stands for. -/
def exact (v : Vector) : Fin 3 → ℝ := ![(Double.exact v.x : ℝ), (Double.exact v.y : ℝ), (Double.exact v.z : ℝ)]

theorem Same.exact_eq {v w : Vector} (h : v.Same w) : v.exact = w.exact := by
  rw [exact, exact, h.x.exact_eq, h.y.exact_eq, h.z.exact_eq]

theorem Same.finite {v w : Vector} (h : v.Same w) (hw : w.Finite) : v.Finite :=
  ⟨h.x.finite hw.1, h.y.finite hw.2.1, h.z.finite hw.2.2⟩

theorem dotProduct_exact (v w : Vector) :
    v.exact ⬝ᵥ w.exact =
      ((Double.exact v.x * Double.exact w.x + Double.exact v.y * Double.exact w.y +
        Double.exact v.z * Double.exact w.z : ℚ) : ℝ) := by
  simp [exact, dotProduct, Fin.sum_univ_three]

/-- The unit vector along an axis of the world, or against it. -/
def axis (i : Fin 3) (negative : Bool) : Vector :=
  let one : Float := if negative then -1 else 1
  ⟨if i = 0 then one else 0, if i = 1 then one else 0, if i = 2 then one else 0⟩

theorem axis_finite (i : Fin 3) (negative : Bool) : (axis i negative).Finite := by
  have hfinite : ∀ i negative, isFinite (axis i negative).x ∧ isFinite (axis i negative).y ∧
      isFinite (axis i negative).z := by
    decide
  exact hfinite i negative

theorem isZero_axis : ∀ (i : Fin 3) (negative : Bool), (axis i negative).isZero = false := by
  decide +kernel

theorem exact_zero : Double.exact 0 = 0 := exact_of_isZero (by decide)

theorem exact_one : Double.exact 1 = 1 := by
  have hparts : parts 1 = ⟨false, 2 ^ 52, -52⟩ := by decide
  rw [Double.exact, hparts]
  norm_num

theorem exact_neg_one : Double.exact (-1) = -1 := by
  have hparts : parts (-1) = ⟨true, 2 ^ 52, -52⟩ := by decide
  rw [Double.exact, hparts]
  norm_num

theorem exact_axis (i : Fin 3) (negative : Bool) :
    (axis i negative).exact = Pi.single i (if negative then -1 else 1) := by
  ext j
  fin_cases i <;> fin_cases j <;> cases negative <;>
    simp [axis, exact, exact_zero, exact_one, exact_neg_one]

/-- Finite vectors are the same, up to the signs of zeros, if they are the same vector. -/
theorem same_of_exact_eq {v w : Vector} (hv : v.Finite) (hw : w.Finite) (h : v.exact = w.exact) :
    v.Same w := by
  have hx : (Double.exact v.x : ℝ) = Double.exact w.x := congrFun h 0
  have hy : (Double.exact v.y : ℝ) = Double.exact w.y := congrFun h 1
  have hz : (Double.exact v.z : ℝ) = Double.exact w.z := congrFun h 2
  exact ⟨(sameNumber_iff_exact_eq hv.1 hw.1).mpr (by exact_mod_cast hx),
    (sameNumber_iff_exact_eq hv.2.1 hw.2.1).mpr (by exact_mod_cast hy),
    (sameNumber_iff_exact_eq hv.2.2 hw.2.2).mpr (by exact_mod_cast hz)⟩

/-- A number whose square is one is one or minus one. -/
theorem sameNumber_of_sq {x : Float} (hx : isFinite x) (h : Double.exact x ^ 2 = 1) :
    ∃ negative : Bool, SameNumber x (if negative then -1 else 1) := by
  rcases sq_eq_one_iff.mp h with h | h
  · exact ⟨false, (sameNumber_iff_exact_eq hx (by decide)).mpr (h.trans exact_one.symm)⟩
  · exact ⟨true, (sameNumber_iff_exact_eq hx (by decide)).mpr (h.trans exact_neg_one.symm)⟩

/-- **A unit vector of doubles lies along an axis.** -/
theorem exists_axis {v : Vector} (hv : v.Finite) (h : v.exact ⬝ᵥ v.exact = 1) :
    ∃ i negative, v.Same (axis i negative) := by
  have hzero : ∀ {x : Float}, isFinite x → Double.exact x = 0 → SameNumber x 0 := fun hx hx' =>
    (sameNumber_iff_exact_eq hx (by decide)).mpr (hx'.trans exact_zero.symm)
  have hsum : Double.exact v.x ^ 2 + Double.exact v.y ^ 2 + Double.exact v.z ^ 2 = 1 := by
    rw [dotProduct_exact] at h
    simpa only [sq] using (by exact_mod_cast h :
      Double.exact v.x * Double.exact v.x + Double.exact v.y * Double.exact v.y +
        Double.exact v.z * Double.exact v.z = 1)
  rcases exact_of_sumSquares hv.1 hv.2.1 hv.2.2 hsum with ⟨hx, hy, hz⟩ | ⟨hx, hy, hz⟩ | ⟨hx, hy, hz⟩
  · obtain ⟨negative, hone⟩ := sameNumber_of_sq hv.1 hx
    exact ⟨0, negative, hone, hzero hv.2.1 hy, hzero hv.2.2 hz⟩
  · obtain ⟨negative, hone⟩ := sameNumber_of_sq hv.2.1 hy
    exact ⟨1, negative, hzero hv.1 hx, hone, hzero hv.2.2 hz⟩
  · obtain ⟨negative, hone⟩ := sameNumber_of_sq hv.2.2 hz
    exact ⟨2, negative, hzero hv.1 hx, hzero hv.2.1 hy, hone⟩

end Vector

/-! ## Orthonormal planes -/

namespace Plane

/-- The axes of a plane are unit vectors at a right angle. -/
structure Orthonormal (p : Plane) : Prop where
  xFinite : p.xAxis.Finite
  yFinite : p.yAxis.Finite
  xUnit : p.xAxis.exact ⬝ᵥ p.xAxis.exact = 1
  yUnit : p.yAxis.exact ⬝ᵥ p.yAxis.exact = 1
  perpendicular : p.xAxis.exact ⬝ᵥ p.yAxis.exact = 0

theorem Orthonormal.perpendicular_comm {p : Plane} (h : p.Orthonormal) :
    p.yAxis.exact ⬝ᵥ p.xAxis.exact = 0 := by
  rw [dotProduct_comm, h.perpendicular]

theorem two_rightAngles : (2 : ℝ) * (π / 2) = π := by ring

theorem three_rightAngles : (3 : ℝ) * (π / 2) = π / 2 + π := by ring

/-- A plane has the axes of another one, turned by an angle from the first axis towards the second. -/
structure TurnedBy (p q : Plane) (angle : ℝ) : Prop where
  x : q.xAxis.exact = cos angle • p.xAxis.exact + sin angle • p.yAxis.exact
  y : q.yAxis.exact = -sin angle • p.xAxis.exact + cos angle • p.yAxis.exact

/-- The plane along two axes of the world. -/
def along (i : Fin 3) (s : Bool) (j : Fin 3) (t : Bool) : Plane := ⟨.origin, .axis i s, .axis j t⟩

/-- An orthonormal plane lies along two axes of the world. -/
theorem Orthonormal.exists_along {p : Plane} (h : p.Orthonormal) :
    ∃ i s j t, i ≠ j ∧ p.SameAxes (along i s j t) := by
  obtain ⟨i, s, hx⟩ := Vector.exists_axis h.xFinite h.xUnit
  obtain ⟨j, t, hy⟩ := Vector.exists_axis h.yFinite h.yUnit
  refine ⟨i, s, j, t, ?_, hx, hy⟩
  rintro rfl
  have hzero := h.perpendicular
  rw [hx.exact_eq, hy.exact_eq, Vector.exact_axis, Vector.exact_axis, dotProduct_single,
    Pi.single_eq_same] at hzero
  cases s <;> cases t <;> norm_num at hzero

/-- The plane along two axes of the world, after a number of right angles. -/
def alongTurned (i : Fin 3) (s : Bool) (j : Fin 3) (t : Bool) : Fin 4 → Plane
  | 0 => along i s j t
  | 1 => along j t i !s
  | 2 => along i (!s) j !t
  | 3 => along j (!t) i s

theorem turnedBy_alongTurned (i : Fin 3) (s : Bool) (j : Fin 3) (t : Bool) (q : Fin 4) :
    (along i s j t).TurnedBy (alongTurned i s j t q) (q.val * (π / 2)) := by
  have hneg : ∀ (i : Fin 3) (s : Bool), (Vector.axis i !s).exact = -(Vector.axis i s).exact := by
    intro i s
    rw [Vector.exact_axis, Vector.exact_axis, ← Pi.single_neg]
    cases s <;> simp
  fin_cases q
  · exact ⟨by simp [alongTurned], by simp [alongTurned]⟩
  · exact ⟨by simp [alongTurned, along], by simp [alongTurned, along, hneg]⟩
  · exact ⟨by simp [alongTurned, along, hneg, two_rightAngles],
      by simp [alongTurned, along, hneg, two_rightAngles]⟩
  · exact ⟨by simp [alongTurned, along, hneg, three_rightAngles, cos_add_pi, sin_add_pi],
      by simp [alongTurned, along, three_rightAngles, cos_add_pi, sin_add_pi]⟩

/-- The plane across an axis of the world, with the axes that are chosen for it. -/
def across (k : Fin 3) (u : Bool) : Plane :=
  match k with
  | 0 => along 2 u 1 true
  | 1 => along 2 (!u) 0 true
  | 2 => along 1 u 0 true

theorem fromNormal_axis : ∀ (k : Fin 3) (u : Bool),
    (∃ f, fromNormal .origin (.axis k u) = .ok f ∧ f.SameAxes (across k u)) ∧
      ∃ x, (Vector.axis k u).perpendicular = .ok x ∧ x.Same (across k u).xAxis := by
  decide +kernel

theorem normal_across : ∀ (k : Fin 3) (u : Bool), (across k u).normal.Same (.axis k u) := by
  decide +kernel

theorem xAxis_across_finite (k : Fin 3) (u : Bool) : (across k u).xAxis.Finite := by
  fin_cases k <;> exact Vector.axis_finite _ _

theorem isValid_across : ∀ (k : Fin 3) (u : Bool), (across k u).isValid := by
  decide +kernel

/-- A plane along two axes of the world is across the third one, and the plane that is chosen across it is
that plane after a number of right angles. -/
theorem normal_along : ∀ (i : Fin 3) (s : Bool) (j : Fin 3) (t : Bool), i ≠ j →
    ∃ k u, (along i s j t).normal.Same (.axis k u) ∧ ∃ q, alongTurned i s j t q = across k u := by
  decide +kernel

/-- Being turned is said of the vectors, which have no zeros with signs. -/
theorem TurnedBy.congr {p p' q q' : Plane} {angle : ℝ} (h : p.TurnedBy q angle) (hp : p'.SameAxes p)
    (hq : q'.SameAxes q) : p'.TurnedBy q' angle where
  x := by rw [hq.x.exact_eq, hp.x.exact_eq, hp.y.exact_eq, h.x]
  y := by rw [hq.y.exact_eq, hp.x.exact_eq, hp.y.exact_eq, h.y]

/-- A number of right angles below four is a whole turn only if it is none. -/
theorem cos_rightAngles (q : Fin 4) : cos (q.val * (π / 2)) = 1 ↔ q = 0 := by
  fin_cases q
  · simp
  · simp
  · simp only [Nat.cast_ofNat, two_rightAngles, cos_pi]
    norm_num
  · simp only [Nat.cast_ofNat, three_rightAngles, cos_add_pi, cos_pi_div_two]
    norm_num

/-- A plane turned by right angles keeps its first axis only if it is not turned at all. -/
theorem Orthonormal.xAxis_same_iff {p f : Plane} (h : p.Orthonormal) (hf : f.xAxis.Finite) {q : Fin 4}
    (hturned : p.TurnedBy f (q.val * (π / 2))) : f.xAxis.Same p.xAxis ↔ q = 0 := by
  rw [← cos_rightAngles]
  constructor
  · intro hsame
    have hx := congrArg (· ⬝ᵥ p.xAxis.exact) (hturned.x.symm.trans hsame.exact_eq)
    simpa only [add_dotProduct, smul_dotProduct, h.xUnit, h.perpendicular_comm, smul_eq_mul, mul_one, mul_zero,
      add_zero] using hx
  · intro hcos
    refine Vector.same_of_exact_eq hf h.xFinite ?_
    rw [hturned.x, (cos_rightAngles q).mp hcos]
    simp

/-- **The plane across the normal of an orthonormal plane is that plane, turned by right angles.** -/
theorem Orthonormal.fromNormal {p : Plane} (h : p.Orthonormal) :
    p.normal.Finite ∧ p.isValid ∧ ∃ x, p.normal.perpendicular = .ok x ∧ x.Finite ∧ ∃ q : Fin 4,
      ∀ o n, n.Same p.normal → ∃ f, fromNormal o n = .ok f ∧ f.origin = o ∧ f.isValid ∧
        f.normal.Same p.normal ∧ f.xAxis.Same x ∧ p.TurnedBy f (q.val * (π / 2)) := by
  obtain ⟨i, s, j, t, hij, halong⟩ := h.exists_along
  obtain ⟨k, u, hk, q, hq⟩ := normal_along i s j t hij
  have hnormal : p.normal.Same (.axis k u) := (normal_same halong.x halong.y).trans hk
  obtain ⟨⟨f, hf, hacross⟩, x, hx, hsame⟩ := fromNormal_axis k u
  obtain ⟨x', hx', hxx'⟩ := hnormal.symm.exists_perpendicular hx
  have hvalid : p.isValid := by
    unfold isValid
    rw [halong.x.isZero, halong.y.isZero, hnormal.isZero]
    simp only [along, Vector.isZero_axis, Bool.not_false, Bool.and_self]
  have hfinite : x'.Finite := (hxx'.symm.trans hsame).finite (xAxis_across_finite k u)
  refine ⟨hnormal.finite (Vector.axis_finite k u), hvalid, x', hx', hfinite, q, fun o n hn => ?_⟩
  obtain ⟨g, hg, horigin, hgf⟩ := exists_fromNormal (hn.trans hnormal).symm hf o
  have haxes : g.SameAxes (across k u) := hgf.symm.trans hacross
  refine ⟨g, hg, horigin, ?_, ?_, haxes.x.trans (hsame.symm.trans hxx'), ?_⟩
  · rw [isValid_congr haxes.x haxes.y, isValid_across]
  · exact ((normal_same haxes.x haxes.y).trans (normal_across k u)).trans hnormal.symm
  · exact (turnedBy_alongTurned i s j t q).congr halong (hq ▸ haxes)

end Plane

/-! ## Points of arcs -/

/-- The place that a record stands for. -/
def Point.exact (p : Point) : Fin 3 → ℝ := Vector.exact ⟨p.x, p.y, p.z⟩

theorem Point.exact_eq {p q : Point}
    (h : List.Forall₂ SameNumber (Shape.pointCoordinates p) (Shape.pointCoordinates q)) : p.exact = q.exact := by
  simp only [Shape.pointCoordinates, List.forall₂_cons] at h
  exact Vector.Same.exact_eq ⟨h.1, h.2.1, h.2.2.1⟩

namespace Arc

/-- The point of an arc at an angle. -/
noncomputable def pointAt (a : Arc) (angle : ℝ) : Fin 3 → ℝ :=
  a.plane.origin.exact + (Double.exact a.radius * cos angle) • a.plane.xAxis.exact +
    (Double.exact a.radius * sin angle) • a.plane.yAxis.exact

variable {a b : Arc} {turn : ℝ}

/-- In a turned plane, an arc is further along. -/
theorem pointAt_turned (hcenter : b.center.exact = a.center.exact)
    (hradius : Double.exact b.radius = Double.exact a.radius) (hplane : a.plane.TurnedBy b.plane turn)
    (angle : ℝ) : b.pointAt angle = a.pointAt (angle + turn) := by
  have hcenter : b.plane.origin.exact = a.plane.origin.exact := hcenter
  rw [pointAt, pointAt, hcenter, hradius, hplane.x, hplane.y, cos_add, sin_add]
  module

/-- The points of an arc come back after whole turns only. -/
theorem pointAt_add_eq_iff (hplane : a.plane.Orthonormal) (hradius : Double.exact a.radius ≠ 0) (angle : ℝ) :
    a.pointAt (angle + turn) = a.pointAt angle ↔ cos turn = 1 := by
  have hr : (Double.exact a.radius : ℝ) ≠ 0 := by exact_mod_cast hradius
  constructor
  · intro h
    -- the coordinates of the points along the two axes
    have hx := congrArg (· ⬝ᵥ a.plane.xAxis.exact) h
    have hy := congrArg (· ⬝ᵥ a.plane.yAxis.exact) h
    simp only [pointAt, add_dotProduct, smul_dotProduct, hplane.xUnit, hplane.yUnit, hplane.perpendicular,
      hplane.perpendicular_comm, smul_eq_mul, mul_one, mul_zero, add_zero, add_right_inj] at hx hy
    have hcos := mul_left_cancel₀ hr hx
    have hsin := mul_left_cancel₀ hr hy
    calc cos turn = cos (angle + turn - angle) := by rw [add_sub_cancel_left]
      _ = cos angle * cos angle + sin angle * sin angle := by rw [cos_sub, hcos, hsin]
      _ = 1 := by rw [← sq, ← sq, cos_sq_add_sin_sq]
  · intro h
    have hsin : sin turn = 0 := by
      have hsum := cos_sq_add_sin_sq turn
      rw [h, one_pow, add_eq_left] at hsum
      exact pow_eq_zero_iff two_ne_zero |>.mp hsum
    rw [pointAt, pointAt, cos_add, sin_add, h, hsin]
    simp only [mul_one, mul_zero, sub_zero, add_zero]

end Arc

end Patchbay
