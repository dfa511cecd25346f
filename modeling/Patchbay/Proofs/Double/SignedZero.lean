import Patchbay.Geometry.Shape
import Patchbay.Proofs.Double.Bits
import Patchbay.Proofs.Result

/-!
# Arithmetic up to the sign of zero

A text shows no sign of zero, so a plane that was written and read may differ from the first one in
such signs.  Whether it is degenerate is decided by sums of products, square roots and comparisons,
and none of them tells the two zeros apart.

* **`SameNumber.mul`, `.add`, `.sub`, `.sqrt`, `.le_iff`** — the operations respect `SameNumber`.
* **`SameNumber.div`** does so only for one and the same divisor: dividing by zero does show its
  sign.  The divisions here are by lengths that do not count as zero.
* `Vector.Same.exists_perpendicular`, `Plane.exists_fromNormal` — the axes that a normal determines
* **`isValid_congr`** — planes with the same coordinates are both degenerate or both not.
-/

namespace Patchbay

namespace Double

open Float.Model UnpackedFloat

/-! ## Operations -/

/-- Two unpacked doubles are the same, or two zeros. -/
def SameUnpacked (u v : UnpackedFloat) : Prop := u = v ∨ (∃ s, u = .zero s) ∧ ∃ t, v = .zero t

theorem SameUnpacked.trans {u v w : UnpackedFloat} (h : SameUnpacked u v)
    (h' : SameUnpacked v w) : SameUnpacked u w := by
  rcases h with rfl | ⟨hu, hv⟩
  · exact h'
  · rcases h' with rfl | ⟨-, hw⟩
    · exact Or.inr ⟨hu, hv⟩
    · exact Or.inr ⟨hu, hw⟩

theorem unpack_pack_zero (s : Sign) : (Float.Model.pack (.zero s)).unpack = .zero s := by
  cases s <;> rfl

/-- Packing two results that are the same up to the sign of zero. -/
theorem sameNumber_pack {u v : UnpackedFloat} (h : SameUnpacked u v) :
    SameNumber (.ofModel (.pack u)) (.ofModel (.pack v)) := by
  rcases h with rfl | ⟨⟨s, rfl⟩, ⟨t, rfl⟩⟩
  · exact SameNumber.refl _
  · exact Or.inr ⟨⟨s, unpack_pack_zero s⟩, ⟨t, unpack_pack_zero t⟩⟩

theorem SameNumber.unpack {x y : Float} (h : SameNumber x y) :
    SameUnpacked x.toModel.unpack y.toModel.unpack := by
  rcases h with rfl | h
  · exact Or.inl rfl
  · exact Or.inr h

/-- An operation that cannot tell the zeros apart, in either argument. -/
theorem sameUnpacked_binary {f : UnpackedFloat → UnpackedFloat → UnpackedFloat}
    (hleft : ∀ s t v, SameUnpacked (f (.zero s) v) (f (.zero t) v))
    (hright : ∀ u s t, SameUnpacked (f u (.zero s)) (f u (.zero t)))
    {u u' v v' : UnpackedFloat} (hu : SameUnpacked u u') (hv : SameUnpacked v v') :
    SameUnpacked (f u v) (f u' v') := by
  have hfirst : SameUnpacked (f u v) (f u' v) := by
    rcases hu with rfl | ⟨⟨s, rfl⟩, ⟨t, rfl⟩⟩
    · exact Or.inl rfl
    · exact hleft s t v
  have hsecond : SameUnpacked (f u' v) (f u' v') := by
    rcases hv with rfl | ⟨⟨s, rfl⟩, ⟨t, rfl⟩⟩
    · exact Or.inl rfl
    · exact hright u' s t
  exact hfirst.trans hsecond

theorem SameNumber.mul {x x' y y' : Float} (hx : SameNumber x x') (hy : SameNumber y y') :
    SameNumber (x * y) (x' * y') := by
  apply sameNumber_pack
  refine sameUnpacked_binary ?_ ?_ hx.unpack hy.unpack
  · intro s t v
    cases v <;> simp [SameUnpacked, UnpackedFloat.mul]
  · intro u s t
    cases u <;> simp [SameUnpacked, UnpackedFloat.mul]

theorem SameNumber.add {x x' y y' : Float} (hx : SameNumber x x') (hy : SameNumber y y') :
    SameNumber (x + y) (x' + y') := by
  apply sameNumber_pack
  refine sameUnpacked_binary ?_ ?_ hx.unpack hy.unpack
  · intro s t v
    cases v with
    | zero r =>
        refine Or.inr ⟨?_, ?_⟩ <;> simp only [UnpackedFloat.add] <;> split <;> exact ⟨_, rfl⟩
    | _ => simp [SameUnpacked, UnpackedFloat.add]
  · intro u s t
    cases u with
    | zero r =>
        refine Or.inr ⟨?_, ?_⟩ <;> simp only [UnpackedFloat.add] <;> split <;> exact ⟨_, rfl⟩
    | _ => simp [SameUnpacked, UnpackedFloat.add]

theorem SameNumber.sub {x x' y y' : Float} (hx : SameNumber x x') (hy : SameNumber y y') :
    SameNumber (x - y) (x' - y') := by
  apply sameNumber_pack
  refine sameUnpacked_binary ?_ ?_ hx.unpack hy.unpack
  · intro s t v
    cases v with
    | zero r =>
        refine Or.inr ⟨?_, ?_⟩ <;> simp only [UnpackedFloat.sub] <;> split <;> exact ⟨_, rfl⟩
    | _ => simp [SameUnpacked, UnpackedFloat.sub]
  · intro u s t
    cases u with
    | zero r =>
        refine Or.inr ⟨?_, ?_⟩ <;> simp only [UnpackedFloat.sub] <;> split <;> exact ⟨_, rfl⟩
    | _ => simp [SameUnpacked, UnpackedFloat.sub]

/-- Numerators that are the same number, over one divisor. -/
theorem SameNumber.div {x x' : Float} (hx : SameNumber x x') (y : Float) :
    SameNumber (x / y) (x' / y) := by
  apply sameNumber_pack
  rcases hx.unpack with h | ⟨⟨s, hs⟩, ⟨t, ht⟩⟩
  · rw [h]
    exact Or.inl rfl
  · rw [hs, ht]
    cases y.toModel.unpack <;> simp [SameUnpacked, UnpackedFloat.div]

theorem SameNumber.sqrt {x x' : Float} (hx : SameNumber x x') : SameNumber x.sqrt x'.sqrt := by
  apply sameNumber_pack
  rcases hx.unpack with h | ⟨⟨s, hs⟩, ⟨t, ht⟩⟩
  · rw [h]
    exact Or.inl rfl
  · rw [hs, ht]
    simp [SameUnpacked, UnpackedFloat.sqrt]

/-- Magnitudes have no sign. -/
theorem SameNumber.abs_eq {x x' : Float} (hx : SameNumber x x') : x.abs = x'.abs := by
  rcases hx with rfl | ⟨hx, hx'⟩
  · rfl
  · obtain ⟨m, rfl⟩ := hx.eq_ofMagnitude
    obtain ⟨n, rfl⟩ := hx'.eq_ofMagnitude
    cases m <;> cases n <;> decide

theorem le_iff_unpack (x y : Float) : x ≤ y ↔ x.toModel.unpack.le y.toModel.unpack = true :=
  decide_eq_true_iff

theorem lt_iff_unpack (x y : Float) : x < y ↔ x.toModel.unpack.lt y.toModel.unpack = true :=
  decide_eq_true_iff

theorem not_isZero_of_pos {x : Float} (h : 0 < x) : ¬ IsZero x := by
  intro hzero
  obtain ⟨negative, rfl⟩ := hzero.eq_ofMagnitude
  revert h
  cases negative <;> decide

theorem not_le_zero_of_pos {x : Float} (h : 0 < x) : ¬ x ≤ 0 := by
  obtain ⟨t, hzero⟩ : IsZero 0 := by decide +kernel
  rw [lt_iff_unpack, hzero] at h
  rw [le_iff_unpack, hzero]
  cases hx : x.toModel.unpack with
  | infinity s => cases s <;> simp_all [UnpackedFloat.lt, UnpackedFloat.le, UnpackedFloat.compare]
  | notANumber => simp_all [UnpackedFloat.lt, UnpackedFloat.compare]
  | zero s => simp_all [UnpackedFloat.lt, UnpackedFloat.compare]
  | finite s m e hm => cases s <;> simp_all [UnpackedFloat.lt, UnpackedFloat.le, UnpackedFloat.compare]

theorem SameNumber.le_iff {x x' : Float} (hx : SameNumber x x') (y : Float) :
    x ≤ y ↔ x' ≤ y := by
  rw [le_iff_unpack, le_iff_unpack]
  rcases hx.unpack with h | ⟨⟨s, hs⟩, ⟨t, ht⟩⟩
  · rw [h]
  · rw [hs, ht]
    cases y.toModel.unpack with
    | infinity r => cases r <;> rfl
    | notANumber => rfl
    | zero r => rfl
    | finite r m e hm => cases r <;> rfl

end Double

/-! ## Vectors -/

namespace Vector

open Double

/-- Vectors with the same coordinates, up to the signs of zeros. -/
structure Same (a b : Vector) : Prop where
  x : SameNumber a.x b.x
  y : SameNumber a.y b.y
  z : SameNumber a.z b.z

instance (a b : Vector) : Decidable (a.Same b) :=
  decidable_of_iff (SameNumber a.x b.x ∧ SameNumber a.y b.y ∧ SameNumber a.z b.z)
    ⟨fun h => ⟨h.1, h.2.1, h.2.2⟩, fun h => ⟨h.x, h.y, h.z⟩⟩

theorem Same.symm {a b : Vector} (h : a.Same b) : b.Same a := ⟨h.x.symm, h.y.symm, h.z.symm⟩

theorem Same.trans {a b c : Vector} (h : a.Same b) (h' : b.Same c) : a.Same c :=
  ⟨h.x.trans h'.x, h.y.trans h'.y, h.z.trans h'.z⟩

theorem Same.dot {a a' b b' : Vector} (ha : a.Same a') (hb : b.Same b') :
    SameNumber (a.dot b) (a'.dot b') :=
  ((ha.x.mul hb.x).add (ha.y.mul hb.y)).add (ha.z.mul hb.z)

theorem Same.cross {a a' b b' : Vector} (ha : a.Same a') (hb : b.Same b') :
    (a.cross b).Same (a'.cross b') where
  x := (ha.y.mul hb.z).sub (ha.z.mul hb.y)
  y := (ha.z.mul hb.x).sub (ha.x.mul hb.z)
  z := (ha.x.mul hb.y).sub (ha.y.mul hb.x)

theorem Same.length {a a' : Vector} (h : a.Same a') : SameNumber a.length a'.length :=
  (h.dot h).sqrt

theorem Same.isZero {a a' : Vector} (h : a.Same a') : a.isZero = a'.isZero :=
  decide_eq_decide.mpr (h.length.le_iff zeroTolerance)

/-- A length of zero counts as zero. -/
theorem isZero_of_length {a : Vector} (h : IsZero a.length) : a.isZero := by
  have hzero : ofMagnitude false 0 ≤ zeroTolerance := by decide
  have hsame : SameNumber (ofMagnitude false 0) a.length := Or.inr ⟨isZero_ofMagnitude false, h⟩
  exact decide_eq_true ((hsame.le_iff zeroTolerance).mp hzero)

/-- Vectors that are the same have unit vectors that are, or neither has one. -/
theorem Same.unitized {a a' : Vector} (h : a.Same a') :
    (∃ u u', a.unitized = .ok u ∧ a'.unitized = .ok u' ∧ u.Same u')
      ∨ (a.unitized = .error .zeroLength ∧ a'.unitized = .error .zeroLength) := by
  unfold Vector.unitized
  rw [← h.isZero]
  by_cases hzero : a.isZero
  · right
    simp [hzero]
  · left
    have hlength : a.length = a'.length := by
      rcases h.length with heq | ⟨hz, -⟩
      · exact heq
      · exact absurd (isZero_of_length hz) hzero
    rw [if_neg hzero, if_neg hzero, ← hlength]
    exact ⟨_, _, rfl, rfl, h.x.div _, h.y.div _, h.z.div _⟩

theorem Same.exists_unitized {a a' u : Vector} (h : a.Same a') (hu : a.unitized = .ok u) :
    ∃ u', a'.unitized = .ok u' ∧ u.Same u' := by
  rcases h.unitized with ⟨v, u', hv, hu', hsame⟩ | ⟨hnone, -⟩
  · cases hu.symm.trans hv
    exact ⟨u', hu', hsame⟩
  · cases hu.symm.trans hnone

/-- The axis that a vector is least aligned with depends on magnitudes only. -/
theorem Same.leastAxis_eq {a a' : Vector} (h : a.Same a') : a.leastAxis = a'.leastAxis := by
  unfold leastAxis
  rw [h.x.abs_eq, h.y.abs_eq, h.z.abs_eq]

theorem Same.exists_perpendicular {a a' u : Vector} (h : a.Same a') (hu : a.perpendicular = .ok u) :
    ∃ u', a'.perpendicular = .ok u' ∧ u.Same u' := by
  have haxis : a.leastAxis.Same a'.leastAxis := by
    rw [h.leastAxis_eq]
    exact ⟨.refl _, .refl _, .refl _⟩
  unfold perpendicular at hu ⊢
  rw [← h.isZero]
  split at hu
  · cases hu
  · next hzero =>
    rw [if_neg hzero]
    exact (h.cross haxis).exists_unitized hu

end Vector

namespace Plane

/-- Planes whose axes are the same, up to the signs of zeros; their origins may differ. -/
structure SameAxes (p q : Plane) : Prop where
  x : p.xAxis.Same q.xAxis
  y : p.yAxis.Same q.yAxis

instance (p q : Plane) : Decidable (p.SameAxes q) :=
  decidable_of_iff (p.xAxis.Same q.xAxis ∧ p.yAxis.Same q.yAxis) ⟨fun h => ⟨h.1, h.2⟩, fun h => ⟨h.x, h.y⟩⟩

theorem SameAxes.symm {p q : Plane} (h : p.SameAxes q) : q.SameAxes p := ⟨h.x.symm, h.y.symm⟩

theorem SameAxes.trans {p q r : Plane} (h : p.SameAxes q) (h' : q.SameAxes r) : p.SameAxes r :=
  ⟨h.x.trans h'.x, h.y.trans h'.y⟩

/-- The axes of the plane across a normal depend on the normal only, up to the signs of zeros. -/
theorem exists_fromNormal {o : Point} {n n' : Vector} {p : Plane} (h : n.Same n')
    (hp : fromNormal o n = .ok p) (o' : Point) :
    ∃ q, fromNormal o' n' = .ok q ∧ q.origin = o' ∧ p.SameAxes q := by
  unfold fromNormal at hp ⊢
  obtain ⟨u, hu, hp⟩ := exists_of_bind_eq_ok hp
  obtain ⟨x, hx, hp⟩ := exists_of_bind_eq_ok hp
  cases hp
  obtain ⟨u', hu', hunit⟩ := h.exists_unitized hu
  obtain ⟨x', hx', haxis⟩ := hunit.exists_perpendicular hx
  refine ⟨⟨o', x', u'.cross x'⟩, ?_, rfl, haxis, hunit.cross haxis⟩
  simp only [hu', hx', bind, Except.bind, pure, Except.pure]

/-- Planes whose axes are the same have normals that are. -/
theorem normal_same {p q : Plane} (hx : p.xAxis.Same q.xAxis) (hy : p.yAxis.Same q.yAxis) :
    p.normal.Same q.normal := by
  have hcross := hx.cross hy
  unfold normal
  dsimp only
  rcases hcross.unitized with ⟨u, u', hu, hu', hsame⟩ | ⟨hp, hq⟩
  · rw [hu, hu']
    exact hsame
  · rw [hp, hq]
    exact hcross

/-- **Whether a plane is degenerate does not depend on the signs of zeros.** -/
theorem isValid_congr {p q : Plane} (hx : p.xAxis.Same q.xAxis) (hy : p.yAxis.Same q.yAxis) :
    p.isValid = q.isValid := by
  unfold isValid
  rw [hx.isZero, hy.isZero, (normal_same hx hy).isZero]

end Plane

end Patchbay
