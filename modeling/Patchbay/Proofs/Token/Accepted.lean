import Patchbay.Proofs.Result
import Patchbay.Proofs.Token.Repeating

/-!
# Accepted tokens

A codec reads more than it writes: signs, blanks, upper case, exponents of any size.  What it makes of
such a token is written again as a plain one, unless a number in it is beyond the finite doubles.

* `Value.doubles` — the doubles that the token of a value writes
* **`Codec.Rewrites`** — a value is written as a token that stands for an equal value, which is written
  as the same token.  It is what keeping a value and repeating it come to (`Codec.rewrites`).
* **`Codec.Sorts`** says of a value that a codec read which of the two it is: all of its numbers are
  finite and it is kept and repeated, or one is not and writing stops there.  There is one lemma for
  each codec but those whose curves are built anew from their tokens.
* **`Codec.accepted_rewrites`** — the result, for every text that a codec accepts.
-/

namespace Patchbay

open Double

/-- The doubles that the token of a value writes. -/
def Value.doubles : Value → List Float
  | .float x => [x]
  | .shape s => s.coordinates
  | _ => []

/-! ## Writing stops -/

namespace Token

/-- Writing stops at a number that is not finite. -/
def Stops (written : Except Fault String) : Prop := ∃ x, isFinite x = false ∧ written = .error (.nonFinite x)

theorem Stops.bind {written : Except Fault String} (h : Stops written)
    (f : String → Except Fault String) : Stops (written >>= f) := by
  obtain ⟨x, hx, rfl⟩ := h
  exact ⟨x, hx, rfl⟩

theorem writeNumber_stops {x : Float} (h : isFinite x = false) : Stops (writeNumber x) := by
  refine ⟨x, h, ?_⟩
  rw [writeNumber, if_neg (Bool.eq_false_iff.mp h)]

/-- What was written goes on with what follows. -/
theorem stops_bind_ok {written : Except Fault String} {s : String} (h : written = .ok s)
    {f : String → Except Fault String} (hf : Stops (f s)) : Stops (written >>= f) := by
  rw [h]
  exact hf

theorem writeTriple_stops {x y z : Float} (h : ¬ (isFinite x ∧ isFinite y ∧ isFinite z)) :
    Stops (writeTriple x y z) := by
  unfold writeTriple
  cases hx : isFinite x with
  | false => exact (writeNumber_stops hx).bind _
  | true =>
      obtain ⟨s, -, hs, -⟩ := writeNumber_spec hx
      refine stops_bind_ok hs ?_
      cases hy : isFinite y with
      | false => exact (writeNumber_stops hy).bind _
      | true =>
          obtain ⟨t, -, ht, -⟩ := writeNumber_spec hy
          refine stops_bind_ok ht ((writeNumber_stops ?_).bind _)
          exact Bool.eq_false_iff.mpr fun hz => h ⟨hx, hy, hz⟩

theorem writePoints_stops {p q : Point} (h : ¬ (p.Finite ∧ q.Finite)) : Stops (writePoints p q) := by
  unfold writePoints
  by_cases hp : p.Finite
  · obtain ⟨s, -, hs, -⟩ := readPoint_spec hp
    exact stops_bind_ok hs ((writeTriple_stops fun hq => h ⟨hp, hq⟩).bind _)
  · exact (writeTriple_stops hp).bind _

theorem writePlane_stops {p : Plane} (h : ¬ (p.origin.Finite ∧ p.xAxis.Finite ∧ p.yAxis.Finite)) :
    Stops (writePlane p) := by
  unfold writePlane
  by_cases ho : p.origin.Finite
  · obtain ⟨s, -, hs, -⟩ := readPoint_spec ho
    refine stops_bind_ok hs ?_
    by_cases hx : p.xAxis.Finite
    · obtain ⟨t, -, ht, -⟩ := readVector_spec hx
      exact stops_bind_ok ht ((writeTriple_stops fun hy => h ⟨ho, hx, hy⟩).bind _)
    · exact (writeTriple_stops hx).bind _
  · exact (writeTriple_stops ho).bind _

/-- Two numbers around a separator. -/
theorem writePair_stops {x y : Float} (h : ¬ (isFinite x ∧ isFinite y)) (sep : String) :
    Stops (do return (← writeNumber x) ++ sep ++ (← writeNumber y)) := by
  cases hx : isFinite x with
  | false => exact (writeNumber_stops hx).bind _
  | true =>
      obtain ⟨s, -, hs, -⟩ := writeNumber_spec hx
      refine stops_bind_ok hs ((writeNumber_stops ?_).bind _)
      exact Bool.eq_false_iff.mpr fun hy => h ⟨hx, hy⟩

/-! ## What is read -/

/-- An integer that is read has no more digits than are written. -/
theorem digitCount_of_readInteger {cs : List Char} {i : ℤ} (h : readInteger cs = .ok i) :
    Text.digitCount i.natAbs ≤ integerDigitLimit := by
  unfold readInteger at h
  dsimp only at h
  split at h
  · split at h
    · next hread =>
      cases h
      unfold readInt? readIntUpTo? at hread
      obtain ⟨body, -, hread⟩ := Option.bind_eq_some_iff.mp hread
      dsimp only at hread
      split at hread
      · cases hread
      · next hdigits =>
        simp only [Bool.or_eq_true, decide_eq_true_eq, not_or, Nat.not_lt] at hdigits
        have hlt := Text.natOfDigits_lt (Numeral.sign body).2
        have hle : 10 ^ (Numeral.sign body).2.length ≤ 10 ^ integerDigitLimit :=
          Nat.pow_le_pow_right (by decide) hdigits.2
        have habs : i.natAbs = Text.natOfDigits (Numeral.sign body).2 := by
          rw [← Option.some.inj hread]
          split <;> simp
        refine (Nat.length_toDigits_le_iff (by decide) (by decide)).mpr ?_
        rw [habs]
        exact hlt.trans_le hle
    · cases h
  · cases h

theorem readChannel_le {cs : List Char} {n : ℕ} (h : readChannel cs = .ok n) : n ≤ 255 := by
  unfold readChannel at h
  obtain ⟨i, -, h⟩ := exists_of_bind_eq_ok h
  split at h
  · cases h
    omega
  · cases h

theorem readColor_le {cs : List Char} {c : Color} (h : readColor cs = .ok c) :
    c.red ≤ 255 ∧ c.green ≤ 255 ∧ c.blue ≤ 255 ∧ c.alpha ≤ 255 := by
  unfold readColor at h
  obtain ⟨channels, hread, h⟩ := exists_of_bind_eq_ok h
  have hle : ∀ n ∈ channels, n ≤ 255 := by
    intro n hn
    obtain ⟨field, -, hfield⟩ := exists_of_mem_mapM hread hn
    exact readChannel_le hfield
  split at h
  · cases h
    simp only [List.mem_cons, List.not_mem_nil, or_false, forall_eq_or_imp, forall_eq] at hle
    exact ⟨hle.2.1, hle.2.2.1, hle.2.2.2, hle.1⟩
  · cases h

end Token

/-! ## Codecs -/

namespace Codec

variable {c : Codec} {v : Value} {s : String}

/-- The codec writes the value as a token that stands for an equal value, which it writes as the same
token. -/
def Rewrites (c : Codec) (v : Value) : Prop :=
  ∃ token w, c.serialize v = .ok token ∧ c.deserialize (.str token) = .ok w ∧ w.sameAs v = true ∧
    c.serialize w = .ok token

theorem rewrites (hc : c ∈ builtins.map Prod.fst) (hkeeps : c.Keeps v) (hrepeats : c.Repeats v) :
    c.Rewrites v := by
  obtain ⟨s, w, hwrite, hread, hvalid, hsame⟩ := hkeeps.payload
  obtain ⟨s', w', hwrite', hread', haccepts, -, hagain⟩ := hrepeats.payload
  obtain rfl : s = s' := Except.ok.inj (hwrite.symm.trans hwrite')
  obtain rfl : w = w' := Except.ok.inj (hread.symm.trans hread')
  refine ⟨c.tag ++ ":" ++ s, w, ?_, (Registry.deserialize_token hc hread hvalid).1, hsame, ?_⟩
  · simp [serialize, hkeeps.accepts, hkeeps.valid, hwrite]
  · simp [serialize, haccepts, hvalid, hagain]

/-- The codec keeps and repeats the value if its numbers are finite, and otherwise stops writing it. -/
structure Sorts (c : Codec) (v : Value) : Prop where
  accepts : c.accepts v = true
  finite : (∀ x ∈ v.doubles, isFinite x = true) → c.Keeps v ∧ c.Repeats v
  infinite : ¬ (∀ x ∈ v.doubles, isFinite x = true) → Token.Stops (c.write v)

/-- A value without doubles in its token is kept and repeated in any case. -/
theorem Sorts.of_exact (hnumbers : v.doubles = []) (h : c.Returns v) : c.Sorts v where
  accepts := h.accepts
  finite := fun _ => ⟨h.keeps, h.repeats⟩
  infinite := fun hinfinite => absurd (fun x hx => by rw [hnumbers] at hx; cases hx) hinfinite

/-- Where finite numbers make a value that is returned, and others one that stops the codec. -/
theorem Sorts.of_iff {P : Prop} (haccepts : c.accepts v = true)
    (hfinite : (∀ x ∈ v.doubles, isFinite x = true) ↔ P) (hreturns : P → c.Returns v)
    (hstops : ¬ P → Token.Stops (c.write v)) : c.Sorts v where
  accepts := haccepts
  finite := fun h => ⟨(hreturns (hfinite.mp h)).keeps, (hreturns (hfinite.mp h)).repeats⟩
  infinite := fun h => hstops (mt hfinite.mpr h)

theorem number_sorts (hread : number.read s = .ok v) (hvalid : number.valid v = true) : number.Sorts v := by
  obtain ⟨x, -, rfl⟩ := exists_of_map_eq_ok hread
  have hx : isFinite x = true := hvalid
  exact .of_iff rfl (by simp [Value.doubles, hx]) (fun _ => number_returns hx) (absurd trivial)

theorem integer_sorts (hread : integer.read s = .ok v) : integer.Sorts v := by
  obtain ⟨i, hi, rfl⟩ := exists_of_map_eq_ok hread
  have hdigits := Token.digitCount_of_readInteger hi
  exact .of_exact rfl (integer_returns hdigits)

theorem boolean_sorts (hread : boolean.read s = .ok v) : boolean.Sorts v := by
  obtain ⟨b, -, rfl⟩ := exists_of_map_eq_ok hread
  exact .of_exact rfl (boolean_returns b)

theorem text_sorts (hread : text.read s = .ok v) : text.Sorts v := by
  cases hread
  exact .of_exact rfl (text_returns s)

theorem color_sorts (hread : color.read s = .ok v) : color.Sorts v := by
  obtain ⟨c, hc, rfl⟩ := exists_of_map_eq_ok hread
  obtain ⟨hr, hg, hb, ha⟩ := Token.readColor_le hc
  exact .of_exact rfl (color_returns hr hg hb ha)

theorem point_sorts (hread : point.read s = .ok v) : point.Sorts v := by
  obtain ⟨p, -, rfl⟩ := exists_of_map_eq_ok hread
  refine .of_iff (P := p.Finite) rfl ?_ point_returns fun h => Token.writeTriple_stops h
  simp [Value.doubles, Shape.coordinates, Shape.pointCoordinates, Point.Finite]

theorem vector_sorts (hread : vector.read s = .ok v) : vector.Sorts v := by
  obtain ⟨u, -, rfl⟩ := exists_of_map_eq_ok hread
  refine .of_iff (P := u.Finite) rfl ?_ vector_returns fun h => Token.writeTriple_stops h
  simp [Value.doubles, Shape.coordinates, Shape.vectorCoordinates, Vector.Finite]

theorem line_sorts (hread : line.read s = .ok v) : line.Sorts v := by
  obtain ⟨⟨p, q⟩, -, rfl⟩ := exists_of_map_eq_ok hread
  refine .of_iff (P := p.Finite ∧ q.Finite) rfl ?_ (fun h => line_returns h.1 h.2)
    fun h => Token.writePoints_stops h
  simp [Value.doubles, Shape.coordinates, Shape.pointCoordinates, Point.Finite, and_assoc]

theorem box_sorts (hread : box.read s = .ok v) : box.Sorts v := by
  obtain ⟨⟨p, q⟩, -, rfl⟩ := exists_of_map_eq_ok hread
  refine .of_iff (P := p.Finite ∧ q.Finite) rfl ?_ (fun h => box_returns h.1 h.2)
    fun h => Token.writePoints_stops h
  simp [Value.doubles, Shape.coordinates, Shape.pointCoordinates, Point.Finite, and_assoc]

theorem plane_sorts (hread : plane.read s = .ok v) (hvalid : plane.valid v = true) : plane.Sorts v := by
  obtain ⟨p, -, rfl⟩ := exists_of_map_eq_ok hread
  refine .of_iff (P := p.origin.Finite ∧ p.xAxis.Finite ∧ p.yAxis.Finite) rfl ?_
    (fun h => plane_returns h.1 h.2.1 h.2.2 hvalid) fun h => Token.writePlane_stops h
  simp [Value.doubles, Shape.coordinates, Shape.planeCoordinates, Shape.pointCoordinates,
    Shape.vectorCoordinates, Point.Finite, Vector.Finite, and_assoc]

theorem domain_sorts (hread : domain.read s = .ok v) : domain.Sorts v := by
  obtain ⟨⟨a, b⟩, -, rfl⟩ := exists_of_map_eq_ok hread
  refine .of_iff (P := isFinite a ∧ isFinite b) rfl ?_ (fun h => domain_returns h.1 h.2)
    fun h => Token.writePair_stops h "<"
  simp [Value.doubles, Shape.coordinates]

theorem bounds_sorts (hread : bounds.read s = .ok v) : bounds.Sorts v := by
  obtain ⟨⟨a, b⟩, -, rfl⟩ := exists_of_map_eq_ok hread
  refine .of_iff (P := isFinite a ∧ isFinite b) rfl ?_ (fun h => bounds_returns h.1 h.2)
    fun h => Token.writePair_stops h ","
  simp [Value.doubles, Shape.coordinates]

/-- The codecs whose tokens keep less than their curves. -/
def rebuilding : List Codec := [circle, arc, rectangle]

theorem sorts_of_read (hc : c ∈ builtins.map Prod.fst) (hkeeping : c ∉ rebuilding)
    (hread : c.read s = .ok v) (hvalid : c.valid v = true) : c.Sorts v := by
  simp only [builtins, List.map_cons, List.map_nil, List.mem_cons, List.not_mem_nil, or_false] at hc
  rcases hc with rfl | rfl | rfl | rfl | rfl | rfl | rfl | rfl | rfl | rfl | rfl | rfl | rfl | rfl | rfl
  · exact number_sorts hread hvalid
  · exact integer_sorts hread
  · exact boolean_sorts hread
  · exact text_sorts hread
  · exact point_sorts hread
  · exact vector_sorts hread
  · exact line_sorts hread
  · exact plane_sorts hread hvalid
  · exact absurd (by simp [rebuilding]) hkeeping
  · exact absurd (by simp [rebuilding]) hkeeping
  · exact absurd (by simp [rebuilding]) hkeeping
  · exact box_sorts hread
  · exact domain_sorts hread
  · exact bounds_sorts hread
  · exact color_sorts hread

/-- What stops while writing stops the token. -/
theorem serialize_of_stops (haccepts : c.accepts v = true) (hvalid : c.valid v = true)
    (h : Token.Stops (c.write v)) : ∃ x, isFinite x = false ∧ c.serialize v = .error (.nonFinite x) := by
  obtain ⟨x, hx, hwrite⟩ := h
  refine ⟨x, hx, ?_⟩
  simp only [serialize, haccepts, hvalid, hwrite, Bool.not_true, Bool.false_eq_true, if_false]
  rfl

theorem not_rewrites_of_error {fault : Fault} (h : c.serialize v = .error fault) : ¬ c.Rewrites v := by
  rintro ⟨token, -, htoken, -⟩
  rw [h] at htoken
  cases htoken

/-- What is behind a token that is accepted. -/
theorem exists_of_validates {token : String} (h : c.validates (.str token) = true) :
    ∃ payload v, c.deserialize (.str token) = .ok v ∧ c.read payload = .ok v ∧ c.valid v = true := by
  cases hdecode : c.decode? token with
  | none =>
      simp only [validates, deserialize, hdecode] at h
      cases h
  | some v =>
      obtain ⟨payload, -, hv⟩ := Option.bind_eq_some_iff.mp hdecode
      obtain ⟨w, hread, hv⟩ := Option.bind_eq_some_iff.mp hv
      obtain ⟨hvalid, hw⟩ := Option.ite_none_right_eq_some.mp hv
      obtain rfl := Option.some.inj hw
      refine ⟨payload, w, by simp only [deserialize, hdecode], ?_, hvalid⟩
      cases hresult : c.read payload with
      | error fault =>
          rw [hresult] at hread
          cases hread
      | ok u =>
          rw [hresult] at hread
          exact congrArg Except.ok (Option.some.inj hread)

/-- The codecs that accept no number beyond the finite doubles: their tokens hold none, or they look at
it. -/
def bounded : List Codec := [number, integer, boolean, text, color]

theorem finite_of_bounded (hc : c ∈ bounded) (hread : c.read s = .ok v) (hvalid : c.valid v = true) :
    ∀ x ∈ v.doubles, isFinite x = true := by
  have hnone : v.doubles = [] → ∀ x ∈ v.doubles, isFinite x = true := by
    intro hv x hx
    rw [hv] at hx
    cases hx
  simp only [bounded, List.mem_cons, List.not_mem_nil, or_false] at hc
  rcases hc with rfl | rfl | rfl | rfl | rfl
  · obtain ⟨x, -, rfl⟩ := exists_of_map_eq_ok hread
    intro y hy
    rw [List.mem_singleton.mp hy]
    exact hvalid
  · obtain ⟨i, -, rfl⟩ := exists_of_map_eq_ok hread
    exact hnone rfl
  · obtain ⟨b, -, rfl⟩ := exists_of_map_eq_ok hread
    exact hnone rfl
  · cases hread
    exact hnone rfl
  · obtain ⟨color, -, rfl⟩ := exists_of_map_eq_ok hread
    exact hnone rfl

/-- **What a codec accepts, it writes again**, unless it holds a number beyond the finite doubles, at
which writing stops.  Some codecs accept no such number. -/
theorem accepted_rewrites (hc : c ∈ builtins.map Prod.fst) (hkeeping : c ∉ rebuilding)
    {token : String} (h : c.validates (.str token) = true) :
    ∃ v, c.deserialize (.str token) = .ok v ∧
      (c.Rewrites v ↔ ∀ x ∈ v.doubles, isFinite x = true) ∧
      (¬ c.Rewrites v → ∃ x, isFinite x = false ∧ c.serialize v = .error (.nonFinite x)) ∧
      (c ∈ bounded → c.Rewrites v) := by
  obtain ⟨payload, w, hdeserialize, hread, hvalid⟩ := exists_of_validates h
  have hsorts := sorts_of_read hc hkeeping hread hvalid
  have hfinite : (∀ x ∈ w.doubles, isFinite x = true) → c.Rewrites w := fun hnumbers =>
    rewrites hc (hsorts.finite hnumbers).1 (hsorts.finite hnumbers).2
  have hinfinite : ¬ (∀ x ∈ w.doubles, isFinite x = true) →
      ∃ x, isFinite x = false ∧ c.serialize w = .error (.nonFinite x) := fun hnumbers =>
    serialize_of_stops hsorts.accepts hvalid (hsorts.infinite hnumbers)
  refine ⟨w, hdeserialize, ⟨fun hrewrites => ?_, hfinite⟩, fun hrewrites => hinfinite (mt hfinite hrewrites),
    fun hbounded => hfinite (finite_of_bounded hbounded hread hvalid)⟩
  by_contra hnumbers
  obtain ⟨x, -, hfault⟩ := hinfinite hnumbers
  exact not_rewrites_of_error hfault hrewrites

/-- A line in signs, blanks and an exponent. -/
theorem accepted_rewrites_looseLine :
    line.validates (.str "line2p: 1 ,+2,3E0;4,5.,.6") = true ∧
      ∃ v, line.deserialize (.str "line2p: 1 ,+2,3E0;4,5.,.6") = .ok v ∧ line.Rewrites v := by
  have hvalidates : line.validates (.str "line2p: 1 ,+2,3E0;4,5.,.6") = true := by decide +kernel
  have hkeeping : line ∉ rebuilding := fun hmem =>
    absurd (List.mem_map_of_mem (f := Codec.typeName) hmem) (by decide)
  obtain ⟨v, hv, hiff, -⟩ := accepted_rewrites (c := line) (by simp [builtins]) hkeeping hvalidates
  refine ⟨hvalidates, v, hv, hiff.mpr ?_⟩
  have hfinite : (line.deserialize (.str "line2p: 1 ,+2,3E0;4,5.,.6")).toOption.all
      (fun u => u.doubles.all isFinite) = true := by decide +kernel
  rw [hv] at hfinite
  simpa [Except.toOption] using hfinite

/-- A point is accepted whose first coordinate reads as infinity, and it cannot be written. -/
theorem point_accepts_infinite :
    point.validates (.str "pointXYZ:1e400,0,0") = true ∧
      ∃ v x, point.deserialize (.str "pointXYZ:1e400,0,0") = .ok v ∧ isFinite x = false ∧
        point.serialize v = .error (.nonFinite x) ∧ ¬ point.Rewrites v := by
  have hvalidates : point.validates (.str "pointXYZ:1e400,0,0") = true := by decide +kernel
  have hinfinite : (point.deserialize (.str "pointXYZ:1e400,0,0")).toOption.map
      (fun u => u.doubles.all isFinite) = some false := by decide +kernel
  obtain ⟨payload, v, hv, hread, hvalid⟩ := exists_of_validates hvalidates
  rw [hv] at hinfinite
  have hdoubles : ¬ ∀ x ∈ v.doubles, isFinite x = true := fun hall => by
    cases (List.all_eq_true.mpr hall).symm.trans (Option.some.inj hinfinite)
  obtain ⟨x, hx, hserialize⟩ := serialize_of_stops (point_sorts hread).accepts hvalid
    ((point_sorts hread).infinite hdoubles)
  exact ⟨hvalidates, v, x, hv, hx, hserialize, not_rewrites_of_error hserialize⟩

end Codec

end Patchbay
