import Patchbay.Proofs.Geometry.Turning

/-!
# Arcs through tokens

The token of an arc keeps the center, the normal, the radius and the two angles, and not the axis from which
the angles are measured.

* `Token.readArc_spec` — what is read is the arc in the plane across the normal that was written
* `Arc.Sound` — arcs of finite numbers with a positive radius in an orthonormal plane
* `Arc.Rebuilt` — an arc that is another one but for its plane, which is turned by right angles
* **`Registry.arc_rebuilt`** — every sound arc is written and read back as a rebuilt one, with its points where
  they were if and only if its first axis is the one that the normal determines
-/

namespace Patchbay

open Double Real

/-- The token of an arc of finite numbers is read as the arc that center and normal determine. -/
theorem Token.readArc_spec {a : Arc} (hcenter : a.center.Finite) (hnormal : a.normal.Finite)
    (hradius : isFinite a.radius) (hpositive : 0 < a.radius) (hstart : isFinite a.startAngle)
    (hend : isFinite a.endAngle) :
    ∃ s c n t u, writeArc a = .ok s ∧ readArc s.toList = Arc.fromCenterNormal c n a.radius t u ∧
      List.Forall₂ SameNumber (Shape.pointCoordinates c) (Shape.pointCoordinates a.center) ∧ n.Same a.normal ∧
      SameNumber t a.startAngle ∧ SameNumber u a.endAngle := by
  obtain ⟨sc, c, hwc, hsc, hrc, hcc⟩ := readPoint_spec hcenter
  obtain ⟨sn, n, hwn, hsn, hrn, hnn⟩ := readVector_spec hnormal
  obtain ⟨sr, r, hwr, hcr, hrr, hsr⟩ := writeNumber_spec hradius
  obtain ⟨st, t, hwt, hct, hrt, hst⟩ := writeNumber_spec hstart
  obtain ⟨su, u, hwu, hcu, hru, hsu⟩ := writeNumber_spec hend
  have hsemi : ∀ {s : String}, (∀ c ∈ s.toList, IsNumberChar c) → ';' ∉ s.toList := fun hs =>
    notMem_of_isNumberChar hs (by decide)
  -- a positive number has no sign to lose
  obtain rfl : r = a.radius := hsr.resolve_right fun hzero => not_isZero_of_pos hpositive hzero.2
  have hreadRadius : readRadius sr.toList = .ok a.radius := by
    rw [readRadius, hrr]
    exact if_neg (not_le_zero_of_pos hpositive)
  have hlist : (sc ++ ";" ++ sn ++ ";" ++ sr ++ ";" ++ st ++ ";" ++ su).toList =
      sc.toList ++ ';' :: (sn.toList ++ ';' :: (sr.toList ++ ';' :: (st.toList ++ ';' :: su.toList))) := by
    simp [String.toList_append]
  refine ⟨sc ++ ";" ++ sn ++ ";" ++ sr ++ ";" ++ st ++ ";" ++ su, c, n, t, u, ?_, ?_, hcc, hnn, hst, hsu⟩
  · rw [writeArc, hwc, hwn, hwr, hwt, hwu]
    rfl
  · rw [readArc, readGroups, hlist, Text.splitOn_append hsc, Text.splitOn_append hsn,
      Text.splitOn_append (hsemi hcr), Text.splitOn_append (hsemi hct), Text.splitOn_of_notMem (hsemi hcu)]
    simp only [hreadRadius, hrc, hrn, hrt, hru]
    rfl

/-- An arc of finite numbers with a positive radius, in an orthonormal plane. -/
structure Arc.Sound (a : Arc) : Prop where
  orthonormal : a.plane.Orthonormal
  center : a.center.Finite
  radius : isFinite a.radius
  positive : 0 < a.radius
  startAngle : isFinite a.startAngle
  endAngle : isFinite a.endAngle

/-- An arc has the numbers of another one, and all its points further along by a number of right angles. -/
structure Arc.Rebuilt (a b : Arc) (q : Fin 4) : Prop where
  center : List.Forall₂ SameNumber (Shape.pointCoordinates b.center) (Shape.pointCoordinates a.center)
  normal : b.normal.Same a.normal
  radius : b.radius = a.radius
  startAngle : SameNumber b.startAngle a.startAngle
  endAngle : SameNumber b.endAngle a.endAngle
  pointAt : ∀ angle, b.pointAt angle = a.pointAt (angle + q.val * (π / 2))
  xAxis : b.plane.xAxis.Same a.plane.xAxis ↔ q = 0

/-- A rebuilt arc has its point at an angle where it was only if its plane was not turned. -/
theorem Arc.Rebuilt.pointAt_eq_iff {a b : Arc} {q : Fin 4} (h : a.Rebuilt b q) (ha : a.Sound) {t u : Float}
    (hsame : SameNumber t u) : b.pointAt (exact t) = a.pointAt (exact u) ↔ q = 0 := by
  have hradius : exact a.radius ≠ 0 := fun hzero => not_isZero_of_pos ha.positive (isZero_of_exact hzero)
  rw [h.pointAt, hsame.exact_eq, pointAt_add_eq_iff ha.orthonormal hradius, Plane.cos_rightAngles]

namespace Registry

theorem arc_mem_builtins : Codec.arc ∈ Codec.builtins.map Prod.fst := by simp [Codec.builtins]

theorem valid_arc {a : Arc} (hpositive : 0 < a.radius) (hvalid : a.plane.isValid) :
    Codec.arc.valid (.shape (.arc a)) = true := by
  simp only [Codec.arc, hvalid, Bool.and_true]
  exact decide_eq_true hpositive

/-- A valid arc is read from its token under the name of its codec. -/
theorem deserialize_arc {s : String} {b : Arc} (hread : Token.readArc s.toList = .ok b) (hpositive : 0 < b.radius)
    (hvalid : b.plane.isValid) : builtin.deserialize "Arc" (.str ("arcCNRAB" ++ ":" ++ s)) = .ok (.shape (.arc b)) := by
  obtain ⟨hname, -⟩ := builtin_lookup arc_mem_builtins
  have hget : builtin.get? "Arc" = some Codec.arc := hname
  have hdecode : Codec.arc.read s = .ok (.shape (.arc b)) := by
    simp only [Codec.arc, hread]
    rfl
  rw [deserialize, get, hget]
  exact (deserialize_token arc_mem_builtins hdecode (valid_arc hpositive hvalid)).1

/-- A valid arc is written by the codec of arcs. -/
theorem serialize_arc {s : String} {a : Arc} (hwrite : Token.writeArc a = .ok s) (hpositive : 0 < a.radius)
    (hvalid : a.plane.isValid) : builtin.serialize (.shape (.arc a)) = .ok ("arcCNRAB" ++ ":" ++ s) := by
  have haccepts : Codec.arc.accepts (.shape (.arc a)) = true := rfl
  have hpayload : Codec.arc.write (.shape (.arc a)) = .ok s := hwrite
  rw [serialize, builtin_forValue? arc_mem_builtins haccepts]
  simp only [Codec.serialize, haccepts, valid_arc hpositive hvalid, hpayload]
  rfl

/-- **An arc comes back with its numbers, and with its points where they were exactly if its first axis is the
one that is chosen for the normal.** -/
theorem arc_rebuilt {a : Arc} (ha : a.Sound) :
    ∃ token b q x, builtin.serialize (.shape (.arc a)) = .ok token ∧
      builtin.deserialize "Arc" (.str token) = .ok (.shape (.arc b)) ∧ a.Rebuilt b q ∧
      (b.pointAt (exact b.startAngle) = a.pointAt (exact a.startAngle) ↔ q = 0) ∧
      (b.pointAt (exact b.endAngle) = a.pointAt (exact a.endAngle) ↔ q = 0) ∧
      a.normal.perpendicular = .ok x ∧ (x.Same a.plane.xAxis ↔ q = 0) := by
  obtain ⟨hnormal, hvalid, x, hx, hfinite, q, hrebuild⟩ := ha.orthonormal.fromNormal
  obtain ⟨s, c, n, t, u, hwrite, hread, hcenter, hn, ht, hu⟩ :=
    Token.readArc_spec ha.center hnormal ha.radius ha.positive ha.startAngle ha.endAngle
  obtain ⟨p, hp, horigin, hpvalid, hpnormal, hpx, hturned⟩ := hrebuild c n hn
  have hcenter : List.Forall₂ SameNumber (Shape.pointCoordinates p.origin) (Shape.pointCoordinates a.center) := by
    rw [horigin]
    exact hcenter
  have hrebuilt : a.Rebuilt ⟨p, a.radius, t, u⟩ q :=
    ⟨hcenter, hpnormal, rfl, ht, hu, Arc.pointAt_turned (Point.exact_eq hcenter) rfl hturned,
      ha.orthonormal.xAxis_same_iff (hpx.finite hfinite) hturned⟩
  have hreadArc : Token.readArc s.toList = .ok ⟨p, a.radius, t, u⟩ := by
    rw [hread, Arc.fromCenterNormal, hp]
    rfl
  refine ⟨"arcCNRAB" ++ ":" ++ s, ⟨p, a.radius, t, u⟩, q, x, serialize_arc hwrite ha.positive hvalid,
    deserialize_arc hreadArc ha.positive hpvalid, hrebuilt, hrebuilt.pointAt_eq_iff ha ht,
    hrebuilt.pointAt_eq_iff ha hu, hx, ?_⟩
  rw [← hrebuilt.xAxis]
  exact ⟨hpx.trans, hpx.symm.trans⟩

/-- The arc of radius one in the world plane, from zero to one. -/
def worldArc : Arc := ⟨.worldXY, 1, 0, 1⟩

theorem sound_worldArc : worldArc.Sound := by
  have hzero : isFinite 0 := by decide
  have hone : isFinite 1 := by decide
  refine ⟨⟨⟨hone, hzero, hzero⟩, ⟨hzero, hone, hzero⟩, ?_, ?_, ?_⟩, ⟨hzero, hzero, hzero⟩, hone, by decide,
    hzero, hone⟩ <;>
    rw [Vector.dotProduct_exact] <;>
    simp [worldArc, Plane.worldXY, Vector.xAxis, Vector.yAxis, Vector.exact_zero, Vector.exact_one]

theorem arc_rebuilt_worldArc :
    worldArc.Sound ∧ ∃ token b q, builtin.serialize (.shape (.arc worldArc)) = .ok token ∧
      builtin.deserialize "Arc" (.str token) = .ok (.shape (.arc b)) ∧ worldArc.Rebuilt b q := by
  obtain ⟨token, b, q, x, hserialize, hdeserialize, hrebuilt, -⟩ := arc_rebuilt sound_worldArc
  exact ⟨sound_worldArc, token, b, q, hserialize, hdeserialize, hrebuilt⟩

/-- The world plane is not the one that is chosen across its normal: its arcs come back a quarter turn
further along. -/
theorem worldArc_moved :
    let b : Arc := ⟨⟨.origin, .yAxis, ⟨-1, 0, 0⟩⟩, 1, 0, 1⟩
    builtin.serialize (.shape (.arc worldArc)) = .ok "arcCNRAB:0,0,0;0,0,1;1;0;1" ∧
      builtin.deserialize "Arc" (.str "arcCNRAB:0,0,0;0,0,1;1;0;1") = .ok (.shape (.arc b)) ∧
      ¬ b.plane.xAxis.Same worldArc.plane.xAxis ∧
      b.pointAt (exact b.startAngle) ≠ worldArc.pointAt (exact worldArc.startAngle) := by
  refine ⟨by decide +kernel, ?_, by decide +kernel, fun h => ?_⟩
  · have hread : Token.readArc "0,0,0;0,0,1;1;0;1".toList = .ok ⟨⟨.origin, .yAxis, ⟨-1, 0, 0⟩⟩, 1, 0, 1⟩ := by
      decide +kernel
    have htoken : "arcCNRAB:0,0,0;0,0,1;1;0;1" = "arcCNRAB" ++ ":" ++ "0,0,0;0,0,1;1;0;1" := by decide +kernel
    rw [htoken]
    exact deserialize_arc hread (by decide +kernel) (by decide +kernel)
  have hfirst := congrFun h 0
  simp [Arc.pointAt, worldArc, Plane.worldXY, Point.exact, Vector.exact, Point.origin, Vector.xAxis, Vector.yAxis,
    Vector.exact_zero, Vector.exact_one] at hfirst

end Registry

end Patchbay
