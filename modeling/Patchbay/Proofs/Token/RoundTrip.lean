import Patchbay.Token.Builtin
import Patchbay.Value.Equality
import Patchbay.Proofs.Double.SignedZero
import Patchbay.Proofs.Token.Number

/-!
# Tokens keep values

A token names its codec and carries all of a value, so that it can be read without being told what
it stands for.

* **`Codec.Keeps`** is what one codec does for one value: it writes a payload and reads an equal
  value from it, which it finds valid again.  **`Codec.Returns`** says in addition that the codec has
  the same payload for the value it reads.  One theorem for each kind of value shows this.
* **`Token.writeNumber_congr`** and what follows from it for records — doubles that are the same number
  have one text.
* **`Registry.Keeps`** is what the registry makes of it: the codec responsible for the value writes
  a token, accepts it, and reads it back under its name; and so does whoever knows nothing but the
  token.  `Registry.keeps_of_codec` goes from one to the other, since no tag contains a colon.
* **`Registry.builtin_keeps`** — the built-in codecs keep every value that is made of finite
  numbers and loses nothing in its payload.  The one exception is by design: an integer of more
  than `integerDigitLimit` digits is not written at all.

Values are compared as expressions compare them, so a zero may lose its sign.  A plane stays valid
when that happens (`Plane.isValid_congr`).
-/

namespace Patchbay

open Double

/-! ## Equality of what is read -/

theorem Decimal.sameAs_self (negative : Bool) (c : ℕ) (e : ℤ) :
    (Decimal.finite negative c e).sameAs (.finite negative c e) = true := by
  have hmagnitude : Decimal.compareMagnitude c e c e = .eq := by
    simp [Decimal.compareMagnitude]
  unfold Decimal.sameAs Decimal.compare?
  by_cases hc : c = 0
  · simp [hc]
  · cases negative <;> simp [hc, hmagnitude]

/-- A finite double is a finite decimal, and zero if its mantissa is. -/
theorem Decimal.ofDouble_finite {x : Float} (h : Double.isFinite x) :
    ∃ c e, Decimal.ofDouble x = .finite (parts x).negative c e
      ∧ ((parts x).mantissa = 0 → c = 0) := by
  unfold Decimal.ofDouble
  rw [isNaN_of_isFinite h, h]
  simp only [Bool.false_eq_true, if_false, Bool.not_true]
  split
  · exact ⟨_, _, rfl, fun hm => by rw [hm, Nat.zero_mul]⟩
  · exact ⟨_, _, rfl, fun hm => by rw [hm, Nat.zero_mul]⟩

/-- Doubles that are the same number are the same decimal. -/
theorem Decimal.sameAs_ofDouble {x y : Float} (h : SameNumber y x) (hx : Double.isFinite x) :
    (Decimal.ofDouble y).sameAs (.ofDouble x) = true := by
  rcases h with rfl | ⟨hy, hx⟩
  · obtain ⟨c, e, hfinite, -⟩ := Decimal.ofDouble_finite hx
    rw [hfinite, Decimal.sameAs_self]
  · obtain ⟨m, rfl⟩ := hy.eq_ofMagnitude
    obtain ⟨n, rfl⟩ := hx.eq_ofMagnitude
    have hzero : ∀ negative, ∃ sign e,
        Decimal.ofDouble (ofMagnitude negative 0) = .finite sign 0 e := by
      intro negative
      obtain ⟨c, e, hfinite, hc⟩ := Decimal.ofDouble_finite
        (show Double.isFinite (ofMagnitude negative 0) by cases negative <;> decide)
      exact ⟨_, e, by rw [hfinite, hc (by cases negative <;> rfl)]⟩
    obtain ⟨s, e, hm⟩ := hzero m
    obtain ⟨t, e', hn⟩ := hzero n
    rw [hm, hn]
    rfl

namespace Value

theorem sameAs_float {x y : Float} (h : SameNumber y x) (hx : Double.isFinite x) :
    (float y).sameAs (float x) = true := by
  simp only [sameAs, sameLeaf, number?]
  exact Decimal.sameAs_ofDouble h hx

theorem sameAs_int (i : ℤ) : (int i).sameAs (int i) = true := by
  simp only [sameAs, sameLeaf, number?]
  exact Decimal.sameAs_self _ _ _

theorem sameAs_bool (b : Bool) : (bool b).sameAs (bool b) = true := by
  simp only [sameAs, sameLeaf, number?]
  exact Decimal.sameAs_self _ _ _

theorem sameAs_shape {s t : Shape} (hkind : s.kind = t.kind)
    (h : List.Forall₂ SameNumber s.coordinates t.coordinates)
    (ht : ∀ x ∈ t.coordinates, Double.isFinite x) : (shape s).sameAs (shape t) = true := by
  have hcoordinates : (s.coordinates == t.coordinates) = true := by
    generalize s.coordinates = xs at h
    generalize t.coordinates = ys at h ht
    induction h with
    | nil => rfl
    | cons hxy _ ih =>
        rw [List.cons_beq_cons, hxy.beq (ht _ (by simp)), ih fun z hz => ht z (by simp [hz])]
        rfl
  simp only [sameAs, sameLeaf, Shape.sameAs, hkind, hcoordinates, beq_self_eq_true, Bool.and_self]

end Value

/-! ## Finite records -/

namespace Point

/-- The coordinates are finite. -/
def Finite (p : Point) : Prop := isFinite p.x ∧ isFinite p.y ∧ isFinite p.z

theorem Finite.forall_mem {p : Point} (h : p.Finite) :
    ∀ x ∈ Shape.pointCoordinates p, isFinite x := by
  simp [Shape.pointCoordinates, h.1, h.2.1, h.2.2]

end Point

namespace Vector

/-- The coordinates are finite. -/
def Finite (v : Vector) : Prop := isFinite v.x ∧ isFinite v.y ∧ isFinite v.z

theorem Finite.forall_mem {v : Vector} (h : v.Finite) :
    ∀ x ∈ Shape.vectorCoordinates v, isFinite x := by
  simp [Shape.vectorCoordinates, h.1, h.2.1, h.2.2]

theorem Same.coordinates {v w : Vector} (h : v.Same w) :
    List.Forall₂ SameNumber (Shape.vectorCoordinates v) (Shape.vectorCoordinates w) :=
  .cons h.x (.cons h.y (.cons h.z .nil))

end Vector

namespace Token

theorem readPoint_spec {p : Point} (h : p.Finite) :
    ∃ s q, writePoint p = .ok s ∧ ';' ∉ s.toList ∧ readPoint s.toList = .ok q
      ∧ List.Forall₂ SameNumber (Shape.pointCoordinates q) (Shape.pointCoordinates p) := by
  obtain ⟨s, x, y, z, hwrite, hsemi, hread, hx, hy, hz⟩ := writeTriple_spec h.1 h.2.1 h.2.2
  refine ⟨s, ⟨x, y, z⟩, hwrite, hsemi, ?_, .cons hx (.cons hy (.cons hz .nil))⟩
  rw [readPoint, hread]
  rfl

theorem readVector_spec {v : Vector} (h : v.Finite) :
    ∃ s w, writeVector v = .ok s ∧ ';' ∉ s.toList ∧ readVector s.toList = .ok w ∧ w.Same v := by
  obtain ⟨s, x, y, z, hwrite, hsemi, hread, hx, hy, hz⟩ := writeTriple_spec h.1 h.2.1 h.2.2
  refine ⟨s, ⟨x, y, z⟩, hwrite, hsemi, ?_, ⟨hx, hy, hz⟩⟩
  rw [readVector, hread]
  rfl

/-- Two points are read back. -/
theorem readPoints_spec {p q : Point} (hp : p.Finite) (hq : q.Finite) :
    ∃ s p' q', writePoints p q = .ok s ∧ readPoints s.toList = .ok (p', q')
      ∧ List.Forall₂ SameNumber (Shape.pointCoordinates p' ++ Shape.pointCoordinates q')
          (Shape.pointCoordinates p ++ Shape.pointCoordinates q) := by
  obtain ⟨sp, p', hwp, hsp, hrp, hpp⟩ := readPoint_spec hp
  obtain ⟨sq, q', hwq, hsq, hrq, hqq⟩ := readPoint_spec hq
  have hlist : (sp ++ ";" ++ sq).toList = sp.toList ++ ';' :: sq.toList := by
    simp [String.toList_append]
  refine ⟨sp ++ ";" ++ sq, p', q', ?_, ?_, List.rel_append hpp hqq⟩
  · rw [writePoints, hwp, hwq]
    rfl
  · rw [readPoints, readGroups, hlist, Text.splitOn_append hsp, Text.splitOn_of_notMem hsq]
    simp only [hrp, hrq]
    rfl

/-- A plane is read back. -/
theorem readPlane_spec {p : Plane} (ho : p.origin.Finite) (hx : p.xAxis.Finite)
    (hy : p.yAxis.Finite) :
    ∃ s q, writePlane p = .ok s ∧ readPlane s.toList = .ok q ∧ q.xAxis.Same p.xAxis
      ∧ q.yAxis.Same p.yAxis
      ∧ List.Forall₂ SameNumber (Shape.planeCoordinates q) (Shape.planeCoordinates p) := by
  obtain ⟨so, o, hwo, hso, hro, hoo⟩ := readPoint_spec ho
  obtain ⟨sx, x, hwx, hsx, hrx, hxx⟩ := readVector_spec hx
  obtain ⟨sy, y, hwy, hsy, hry, hyy⟩ := readVector_spec hy
  have hlist : (so ++ ";" ++ sx ++ ";" ++ sy).toList
      = so.toList ++ ';' :: (sx.toList ++ ';' :: sy.toList) := by
    simp [String.toList_append]
  refine ⟨so ++ ";" ++ sx ++ ";" ++ sy, ⟨o, x, y⟩, ?_, ?_, hxx, hyy, ?_⟩
  · rw [writePlane, hwo, hwx, hwy]
    rfl
  · rw [readPlane, readGroups, hlist, Text.splitOn_append hso, Text.splitOn_append hsx,
      Text.splitOn_of_notMem hsy]
    simp only [hro, hrx, hry]
    rfl
  · exact List.rel_append (List.rel_append hoo hxx.coordinates) hyy.coordinates

/-- A colour channel is read back. -/
theorem readChannel_spec {n : ℕ} (h : n ≤ 255) :
    readChannel (Text.digitsOfNat n) = .ok n := by
  have hcount : Text.digitCount (n : ℤ).natAbs ≤ integerDigitLimit := by
    rw [Int.natAbs_natCast]
    calc Text.digitCount n ≤ 3 := (Nat.length_toDigits_le_iff (by decide) (by decide)).mpr (by omega)
      _ ≤ integerDigitLimit := by decide
  have hread := readInteger_integerText hcount
  rw [integerText_toList] at hread
  simp only [Int.natAbs_natCast, show ¬ ((n : ℤ) < 0) by omega, decide_false, Bool.false_eq_true,
    if_false] at hread
  rw [readChannel, hread]
  have hrange : (0 : ℤ) ≤ n ∧ (n : ℤ) ≤ 255 := by omega
  simp [bind, Except.bind, hrange, pure, Except.pure]

/-- A colour is read back. -/
theorem readColor_spec {c : Color} (hr : c.red ≤ 255) (hg : c.green ≤ 255) (hb : c.blue ≤ 255)
    (ha : c.alpha ≤ 255) : readColor (writeColor c).toList = .ok c := by
  have hcomma : ∀ n, ',' ∉ Text.digitsOfNat n := fun n =>
    notMem_of_isNumberChar (fun c hc => Or.inl (Text.isAsciiDigit_of_mem_digitsOfNat hc))
      (by decide)
  have hlist : (writeColor c).toList
      = Text.digitsOfNat c.alpha ++ ',' :: (Text.digitsOfNat c.red ++ ',' ::
          (Text.digitsOfNat c.green ++ ',' :: Text.digitsOfNat c.blue)) := by
    show (String.ofList (Text.digitsOfNat c.alpha) ++ "," ++ String.ofList (Text.digitsOfNat c.red)
      ++ "," ++ String.ofList (Text.digitsOfNat c.green) ++ ","
      ++ String.ofList (Text.digitsOfNat c.blue)).toList = _
    simp [String.toList_append]
  rw [readColor, hlist, Text.splitOn_append (hcomma _), Text.splitOn_append (hcomma _),
    Text.splitOn_append (hcomma _), Text.splitOn_of_notMem (hcomma _)]
  simp only [List.mapM_cons, List.mapM_nil, readChannel_spec hr, readChannel_spec hg,
    readChannel_spec hb, readChannel_spec ha]
  rfl

end Token

/-! ## Doubles that are the same number -/

namespace Token

theorem text_congr {x y : Float} (h : SameNumber y x) : text inToken y = text inToken x := by
  rcases h with rfl | ⟨hy, hx⟩
  · rfl
  · obtain ⟨m, rfl⟩ := hy.eq_ofMagnitude
    obtain ⟨n, rfl⟩ := hx.eq_ofMagnitude
    cases m <;> cases n <;> decide +kernel

/-- The two zeros have one text. -/
theorem writeNumber_congr {x y : Float} (h : SameNumber y x) (hx : isFinite x) :
    writeNumber y = writeNumber x := by
  rw [writeNumber, writeNumber, if_pos hx, if_pos (h.finite hx), text_congr h]

theorem writeTriple_congr {x y z x' y' z' : Float} (hx : SameNumber x' x) (hy : SameNumber y' y)
    (hz : SameNumber z' z) (hfinite : isFinite x ∧ isFinite y ∧ isFinite z) :
    writeTriple x' y' z' = writeTriple x y z := by
  obtain ⟨hfx, hfy, hfz⟩ := hfinite
  rw [writeTriple, writeTriple, writeNumber_congr hx hfx, writeNumber_congr hy hfy,
    writeNumber_congr hz hfz]

theorem writePoint_congr {p q : Point}
    (h : List.Forall₂ SameNumber (Shape.pointCoordinates q) (Shape.pointCoordinates p))
    (hp : p.Finite) : writePoint q = writePoint p := by
  simp only [Shape.pointCoordinates, List.forall₂_cons] at h
  exact writeTriple_congr h.1 h.2.1 h.2.2.1 hp

theorem writeVector_congr {v w : Vector} (h : w.Same v) (hv : v.Finite) :
    writeVector w = writeVector v := writeTriple_congr h.x h.y h.z hv

theorem writePoints_congr {p q p' q' : Point}
    (h : List.Forall₂ SameNumber (Shape.pointCoordinates p' ++ Shape.pointCoordinates q')
      (Shape.pointCoordinates p ++ Shape.pointCoordinates q)) (hp : p.Finite) (hq : q.Finite) :
    writePoints p' q' = writePoints p q := by
  simp only [Shape.pointCoordinates, List.cons_append, List.nil_append, List.forall₂_cons] at h
  obtain ⟨hx, hy, hz, hx', hy', hz', -⟩ := h
  have hfirst : writePoint p' = writePoint p := writeTriple_congr hx hy hz hp
  have hsecond : writePoint q' = writePoint q := writeTriple_congr hx' hy' hz' hq
  rw [writePoints, writePoints, hfirst, hsecond]

theorem writePlane_congr {p q : Plane}
    (h : List.Forall₂ SameNumber (Shape.planeCoordinates q) (Shape.planeCoordinates p))
    (hx : q.xAxis.Same p.xAxis) (hy : q.yAxis.Same p.yAxis) (ho : p.origin.Finite)
    (hfx : p.xAxis.Finite) (hfy : p.yAxis.Finite) : writePlane q = writePlane p := by
  have horigin : writePoint q.origin = writePoint p.origin := by
    simp only [Shape.planeCoordinates, Shape.pointCoordinates, Shape.vectorCoordinates,
      List.cons_append, List.nil_append, List.forall₂_cons] at h
    exact writeTriple_congr h.1 h.2.1 h.2.2.1 ho
  rw [writePlane, writePlane, horigin, writeVector_congr hx hfx, writeVector_congr hy hfy]

end Token

/-! ## Codecs -/

/-- A codec keeps a value: what it writes is read as an equal value, which it finds valid. -/
structure Codec.Keeps (c : Codec) (v : Value) : Prop where
  accepts : c.accepts v = true
  valid : c.valid v = true
  payload : ∃ s w, c.write v = .ok s ∧ c.read s = .ok w ∧ c.valid w = true ∧ w.sameAs v = true

/-- A codec returns a value: what it writes is read as an equal value, which it takes and writes as before. -/
structure Codec.Returns (c : Codec) (v : Value) : Prop where
  accepts : c.accepts v = true
  valid : c.valid v = true
  payload : ∃ s w, c.write v = .ok s ∧ c.read s = .ok w ∧ c.accepts w = true ∧ c.valid w = true ∧
    w.sameAs v = true ∧ c.write w = .ok s

namespace Codec

theorem Returns.keeps {c : Codec} {v : Value} (h : c.Returns v) : c.Keeps v := by
  obtain ⟨s, w, hwrite, hread, -, hvalid, hsame, -⟩ := h.payload
  exact ⟨h.accepts, h.valid, s, w, hwrite, hread, hvalid, hsame⟩

/-- A value that is read as it was is returned. -/
theorem Returns.of_eq {c : Codec} {v : Value} {s : String} (haccepts : c.accepts v = true)
    (hvalid : c.valid v = true) (hwrite : c.write v = .ok s) (hread : c.read s = .ok v)
    (hsame : v.sameAs v = true) : c.Returns v :=
  ⟨haccepts, hvalid, s, v, hwrite, hread, haccepts, hvalid, hsame, hwrite⟩

theorem number_returns {x : Float} (h : isFinite x) : number.Returns (.float x) where
  accepts := rfl
  valid := h
  payload := by
    obtain ⟨s, y, hwrite, -, hread, hsame⟩ := Token.writeNumber_spec h
    refine ⟨s, .float y, hwrite, ?_, rfl, hsame.finite h, Value.sameAs_float hsame h,
      (Token.writeNumber_congr hsame h).trans hwrite⟩
    simp only [number, hread]
    rfl

theorem integer_returns {i : ℤ} (h : Text.digitCount i.natAbs ≤ integerDigitLimit) :
    integer.Returns (.int i) := by
  refine .of_eq rfl rfl (Token.writeInteger_eq h) ?_ (Value.sameAs_int i)
  simp only [integer, Token.readInteger_integerText h]
  rfl

theorem boolean_returns (b : Bool) : boolean.Returns (.bool b) := by
  cases b with
  | false => exact .of_eq rfl rfl rfl rfl (Value.sameAs_bool false)
  | true => exact .of_eq rfl rfl rfl rfl (Value.sameAs_bool true)

theorem text_returns (s : String) : text.Returns (.str s) := .of_eq rfl rfl rfl rfl (by simp)

theorem point_returns {p : Point} (h : p.Finite) : point.Returns (.shape (.point p)) where
  accepts := rfl
  valid := rfl
  payload := by
    obtain ⟨s, q, hwrite, -, hread, hsame⟩ := Token.readPoint_spec h
    refine ⟨s, .shape (.point q), hwrite, ?_, rfl, rfl, Value.sameAs_shape rfl hsame h.forall_mem,
      (Token.writePoint_congr hsame h).trans hwrite⟩
    simp only [point, hread]
    rfl

theorem vector_returns {v : Vector} (h : v.Finite) : vector.Returns (.shape (.vector v)) where
  accepts := rfl
  valid := rfl
  payload := by
    obtain ⟨s, w, hwrite, -, hread, hsame⟩ := Token.readVector_spec h
    refine ⟨s, .shape (.vector w), hwrite, ?_, rfl, rfl,
      Value.sameAs_shape rfl hsame.coordinates h.forall_mem,
      (Token.writeVector_congr hsame h).trans hwrite⟩
    simp only [vector, hread]
    rfl

theorem line_returns {l : Line} (hs : l.start.Finite) (he : l.end.Finite) :
    line.Returns (.shape (.line l)) where
  accepts := rfl
  valid := rfl
  payload := by
    obtain ⟨s, p, q, hwrite, hread, hsame⟩ := Token.readPoints_spec hs he
    refine ⟨s, .shape (.line ⟨p, q⟩), hwrite, ?_, rfl, rfl, Value.sameAs_shape rfl hsame ?_,
      (Token.writePoints_congr hsame hs he).trans hwrite⟩
    · simp only [line, hread]
      rfl
    · exact List.forall_mem_append.mpr ⟨hs.forall_mem, he.forall_mem⟩

theorem plane_returns {p : Plane} (ho : p.origin.Finite) (hx : p.xAxis.Finite)
    (hy : p.yAxis.Finite) (hvalid : p.isValid) : plane.Returns (.shape (.plane p)) where
  accepts := rfl
  valid := hvalid
  payload := by
    obtain ⟨s, q, hwrite, hread, hxx, hyy, hsame⟩ := Token.readPlane_spec ho hx hy
    refine ⟨s, .shape (.plane q), hwrite, ?_, rfl, (Plane.isValid_congr hxx hyy).trans hvalid,
      Value.sameAs_shape rfl hsame ?_, (Token.writePlane_congr hsame hxx hyy ho hx hy).trans hwrite⟩
    · simp only [plane, hread]
      rfl
    · exact List.forall_mem_append.mpr
        ⟨List.forall_mem_append.mpr ⟨ho.forall_mem, hx.forall_mem⟩, hy.forall_mem⟩

theorem box_returns {b : Box} (hmin : b.min.Finite) (hmax : b.max.Finite) :
    box.Returns (.shape (.box b)) where
  accepts := rfl
  valid := rfl
  payload := by
    obtain ⟨s, p, q, hwrite, hread, hsame⟩ := Token.readPoints_spec hmin hmax
    refine ⟨s, .shape (.box ⟨p, q⟩), hwrite, ?_, rfl, rfl, Value.sameAs_shape rfl hsame ?_,
      (Token.writePoints_congr hsame hmin hmax).trans hwrite⟩
    · simp only [box, hread]
      rfl
    · exact List.forall_mem_append.mpr ⟨hmin.forall_mem, hmax.forall_mem⟩

theorem domain_returns {i : Interval} (h0 : isFinite i.t0) (h1 : isFinite i.t1) :
    domain.Returns (.shape (.interval i)) where
  accepts := rfl
  valid := rfl
  payload := by
    obtain ⟨s, t, x, y, hs, ht, hread, hx, hy⟩ := Token.readPair_spec h0 h1
      (show Text.isAsciiDigit '<' = false ∧ '<' ∉ ['.', 'e', '+', '-'] by decide)
    refine ⟨s ++ String.singleton '<' ++ t, .shape (.interval ⟨x, y⟩), ?_, ?_, rfl, rfl,
      Value.sameAs_shape rfl (.cons hx (.cons hy .nil)) (by simp [Shape.coordinates, h0, h1]), ?_⟩
    · simp only [domain, hs, ht]
      rfl
    · simp only [domain, hread]
      rfl
    · simp only [domain, Token.writeNumber_congr hx h0, Token.writeNumber_congr hy h1, hs, ht]
      rfl

theorem bounds_returns {z : Size} (hw : isFinite z.width) (hh : isFinite z.height) :
    bounds.Returns (.shape (.size z)) where
  accepts := rfl
  valid := rfl
  payload := by
    obtain ⟨s, t, x, y, hs, ht, hread, hx, hy⟩ := Token.readPair_spec hw hh
      (show Text.isAsciiDigit ',' = false ∧ ',' ∉ ['.', 'e', '+', '-'] by decide)
    refine ⟨s ++ String.singleton ',' ++ t, .shape (.size ⟨x, y⟩), ?_, ?_, rfl, rfl,
      Value.sameAs_shape rfl (.cons hx (.cons hy .nil)) (by simp [Shape.coordinates, hw, hh]), ?_⟩
    · simp only [bounds, hs, ht]
      rfl
    · simp only [bounds, hread]
      rfl
    · simp only [bounds, Token.writeNumber_congr hx hw, Token.writeNumber_congr hy hh, hs, ht]
      rfl

theorem color_returns {c : Color} (hr : c.red ≤ 255) (hg : c.green ≤ 255) (hb : c.blue ≤ 255)
    (ha : c.alpha ≤ 255) : color.Returns (.color (some c)) := by
  refine .of_eq rfl rfl rfl ?_ (by simp [Value.sameAs, Value.sameLeaf])
  simp only [color, Token.readColor_spec hr hg hb ha]
  rfl

end Codec

/-! ## The built-in registry -/

/-- A codec takes the values of its own kinds; that a truth value is an integer makes no
difference. -/
theorem Codec.accepts_iff (c : Codec) (v : Value) : c.accepts v ↔ v.kind ∈ c.kinds := by
  unfold Codec.accepts Codec.acceptsKind
  cases v.kind <;> simp [Kind.lineage]

namespace Registry

theorem builtin_byTag : builtin.byTag = Codec.builtins.map fun entry => (entry.1.tag, entry.1) := rfl

theorem builtin_byKind :
    builtin.byKind = Codec.builtins.flatMap fun entry => entry.1.kinds.map (·, entry.1) := rfl

/-- The built-in codecs are found by their names, their tags and the kinds of their values, and no
tag contains a colon. -/
theorem builtin_lookup {c : Codec} (h : c ∈ Codec.builtins.map Prod.fst) :
    builtin.get? c.typeName = some c ∧ builtin.byTag.lookup c.tag = some c
      ∧ (∀ k ∈ c.kinds, builtin.byKind.lookup k = some c) ∧ ':' ∉ c.tag.toList := by
  rw [builtin_byTag, builtin_byKind]
  simp only [Codec.builtins, List.map_cons, List.map_nil, List.mem_cons, List.not_mem_nil,
    or_false] at h
  rcases h with rfl | rfl | rfl | rfl | rfl | rfl | rfl | rfl | rfl | rfl | rfl | rfl | rfl | rfl |
    rfl <;>
    exact ⟨rfl, rfl, fun k hk => by obtain rfl := List.mem_singleton.mp hk; rfl, by decide⟩

/-- A built-in codec is responsible for the values it accepts. -/
theorem builtin_forValue? {c : Codec} (hc : c ∈ Codec.builtins.map Prod.fst)
    {v : Value} (h : c.accepts v) : builtin.forValue? v = some c := by
  obtain ⟨-, -, hkind, -⟩ := builtin_lookup hc
  have hfound := hkind v.kind (c.accepts_iff v |>.mp h)
  unfold forValue?
  cases hk : v.kind <;> rw [hk] at hfound <;> simp [Kind.lineage, hfound]

/-- What a registry does for a value that it keeps: the codec responsible for it writes a token and
accepts it, and the token is read as an equal value, both under the name of the codec and by the
token's own tag, without a report. -/
def Keeps (r : Registry) (v : Value) : Prop :=
  ∃ c token w, r.forValue? v = some c ∧ r.serialize v = .ok token
    ∧ c.validates (.str token) = true ∧ r.deserialize c.typeName (.str token) = .ok w
    ∧ r.tryDecode (.str token) = pure (true, w) ∧ w.sameAs v = true

/-- A token is read by the codec of its tag, to which the registry leaves it. -/
theorem deserialize_token {c : Codec} (hc : c ∈ Codec.builtins.map Prod.fst) {s : String} {w : Value}
    (hread : c.read s = .ok w) (hvalid : c.valid w = true) :
    c.deserialize (.str (c.tag ++ ":" ++ s)) = .ok w ∧
      builtin.tryDecode (.str (c.tag ++ ":" ++ s)) = pure (true, w) := by
  obtain ⟨-, htag, -, hcolon⟩ := builtin_lookup hc
  have hcut : Text.cut ':' (c.tag ++ ":" ++ s).toList = (c.tag.toList, some s.toList) := by
    rw [String.toList_append, String.toList_append]
    exact (congrArg (Text.cut ':') (by simp)).trans (Text.cut_append hcolon s.toList)
  have hpayload : c.payload? (c.tag ++ ":" ++ s) = some s := by
    rw [Codec.payload?, hcut]
    simp
  have hdecode : c.deserialize (.str (c.tag ++ ":" ++ s)) = .ok w := by
    simp [Codec.deserialize, Codec.decode?, hpayload, hread, hvalid, Except.toOption]
  have howner : builtin.codecOfToken? (c.tag ++ ":" ++ s) = some c := by
    rw [codecOfToken?, hcut]
    simpa using htag
  refine ⟨hdecode, ?_⟩
  simp only [tryDecode, howner, hdecode]

/-- **What a built-in codec keeps, the registry keeps.** -/
theorem keeps_of_codec {c : Codec} (hc : c ∈ Codec.builtins.map Prod.fst)
    {v : Value} (h : c.Keeps v) : builtin.Keeps v := by
  obtain ⟨hname, -, -, -⟩ := builtin_lookup hc
  have hv := builtin_forValue? hc h.accepts
  obtain ⟨s, w, hwrite, hread, hvalid, hsame⟩ := h.payload
  obtain ⟨hdecode, htry⟩ := deserialize_token hc hread hvalid
  have hserialize : c.serialize v = .ok (c.tag ++ ":" ++ s) := by
    simp [Codec.serialize, h.accepts, h.valid, hwrite]
  refine ⟨c, c.tag ++ ":" ++ s, w, hv, ?_, ?_, ?_, htry, hsame⟩
  · rw [serialize, hv]
    exact hserialize
  · rw [Codec.validates, hdecode]
    rfl
  · rw [deserialize, get, hname]
    exact hdecode

/-- The values that lose nothing in a token: finite numbers, integers, truth values, texts, records
that are told by the numbers in their tokens, and colours.  Circles, arcs and rectangles are not
among them, because their tokens keep less than their planes. -/
inductive Tokenizable : Value → Prop
  | number {x : Float} (h : isFinite x) : Tokenizable (.float x)
  | integer (i : ℤ) : Tokenizable (.int i)
  | boolean (b : Bool) : Tokenizable (.bool b)
  | text (s : String) : Tokenizable (.str s)
  | point {p : Point} (h : p.Finite) : Tokenizable (.shape (.point p))
  | vector {v : Vector} (h : v.Finite) : Tokenizable (.shape (.vector v))
  | line {l : Line} (hs : l.start.Finite) (he : l.end.Finite) : Tokenizable (.shape (.line l))
  | plane {p : Plane} (ho : p.origin.Finite) (hx : p.xAxis.Finite) (hy : p.yAxis.Finite)
      (hvalid : p.isValid) : Tokenizable (.shape (.plane p))
  | box {b : Box} (hmin : b.min.Finite) (hmax : b.max.Finite) : Tokenizable (.shape (.box b))
  | domain {i : Interval} (h0 : isFinite i.t0) (h1 : isFinite i.t1) :
      Tokenizable (.shape (.interval i))
  | bounds {z : Size} (hw : isFinite z.width) (hh : isFinite z.height) :
      Tokenizable (.shape (.size z))
  | color {c : Color} (hr : c.red ≤ 255) (hg : c.green ≤ 255) (hb : c.blue ≤ 255)
      (ha : c.alpha ≤ 255) : Tokenizable (.color (some c))

/-- A value can be written at all: an integer must not have too many digits. -/
def Writable : Value → Prop
  | .int i => Text.digitCount i.natAbs ≤ integerDigitLimit
  | _ => True

theorem serialize_longInteger {i : ℤ} (h : integerDigitLimit < Text.digitCount i.natAbs) :
    builtin.serialize (.int i) = .error .unreadable := by
  have hc : Codec.integer ∈ Codec.builtins.map Prod.fst := by simp [Codec.builtins]
  have hwrite : Codec.integer.write (.int i) = .error .unreadable := by
    show Token.writeInteger i = _
    rw [Token.writeInteger, if_pos h]
  rw [serialize, builtin_forValue? hc rfl]
  simp only [Codec.serialize, hwrite]
  rfl

/-- Each of these values is returned by one of the built-in codecs. -/
theorem Tokenizable.exists_returns {v : Value} (hv : Tokenizable v) (hwritable : Writable v) :
    ∃ c ∈ Codec.builtins.map Prod.fst, c.Returns v := by
  cases hv with
  | number h => exact ⟨_, by simp [Codec.builtins], Codec.number_returns h⟩
  | integer i => exact ⟨_, by simp [Codec.builtins], Codec.integer_returns hwritable⟩
  | boolean b => exact ⟨_, by simp [Codec.builtins], Codec.boolean_returns b⟩
  | text s => exact ⟨_, by simp [Codec.builtins], Codec.text_returns s⟩
  | point h => exact ⟨_, by simp [Codec.builtins], Codec.point_returns h⟩
  | vector h => exact ⟨_, by simp [Codec.builtins], Codec.vector_returns h⟩
  | line hs he => exact ⟨_, by simp [Codec.builtins], Codec.line_returns hs he⟩
  | plane ho hx hy hvalid => exact ⟨_, by simp [Codec.builtins], Codec.plane_returns ho hx hy hvalid⟩
  | box hmin hmax => exact ⟨_, by simp [Codec.builtins], Codec.box_returns hmin hmax⟩
  | domain h0 h1 => exact ⟨_, by simp [Codec.builtins], Codec.domain_returns h0 h1⟩
  | bounds hw hh => exact ⟨_, by simp [Codec.builtins], Codec.bounds_returns hw hh⟩
  | color hr hg hb ha => exact ⟨_, by simp [Codec.builtins], Codec.color_returns hr hg hb ha⟩

theorem keeps_of_tokenizable {v : Value} (hv : Tokenizable v) (hwritable : Writable v) :
    builtin.Keeps v := by
  obtain ⟨c, hc, h⟩ := hv.exists_returns hwritable
  exact keeps_of_codec hc h.keeps

/-- **Tokens are lossless and tell what they are.**  Every value of the list above is kept if it
can be written; an integer that cannot is refused. -/
theorem builtin_keeps :
    (∀ v, Tokenizable v → Writable v → builtin.Keeps v)
      ∧ ∀ i : ℤ, ¬ Writable (.int i) → builtin.serialize (.int i) = .error .unreadable :=
  ⟨fun _ hv hwritable => keeps_of_tokenizable hv hwritable,
    fun _ hi => serialize_longInteger (Nat.lt_of_not_le hi)⟩

/-- The world plane is kept. -/
theorem builtin_keeps_worldXY :
    Tokenizable (.shape (.plane .worldXY)) ∧ Writable (.shape (.plane .worldXY))
      ∧ builtin.Keeps (.shape (.plane .worldXY)) := by
  have hfinite : isFinite 0 ∧ isFinite 1 := by decide +kernel
  have hplane : Tokenizable (.shape (.plane .worldXY)) :=
    .plane ⟨hfinite.1, hfinite.1, hfinite.1⟩ ⟨hfinite.2, hfinite.1, hfinite.1⟩
      ⟨hfinite.1, hfinite.2, hfinite.1⟩ (by decide +kernel)
  exact ⟨hplane, trivial, builtin_keeps.1 _ hplane trivial⟩

/-- The smallest integer that is not written: its digits are one more than the limit. -/
theorem not_keeps_longInteger :
    Tokenizable (.int (10 ^ integerDigitLimit : ℕ))
      ∧ ¬ builtin.Keeps (.int (10 ^ integerDigitLimit : ℕ)) := by
  refine ⟨.integer _, ?_⟩
  rintro ⟨c, token, w, -, hserialize, -⟩
  have hlong : integerDigitLimit
      < Text.digitCount ((10 ^ integerDigitLimit : ℕ) : ℤ).natAbs := by
    rw [Int.natAbs_natCast, ← Nat.not_le]
    intro hle
    exact absurd ((Nat.length_toDigits_le_iff (by decide) (by decide)).mp hle) (lt_irrefl _)
  rw [serialize_longInteger hlong] at hserialize
  exact absurd hserialize (by simp)

end Registry

end Patchbay
