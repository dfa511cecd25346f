import Patchbay.Decimal.Numeral
import Patchbay.Proofs.Double.Shortest
import Mathlib.Data.List.TakeWhile

/-!
# The text of a double reads back

A double is written with its shortest digits, with or without an exponent, and read by a grammar
that admits much more.  The two are connected by the rational number that a numeral stands for.

* **`Numeral.value`** is this number; `Numeral.toFloat` depends on nothing else, so a text may be
  read digit by digit without any rounding in between.
* **`parse?_whole`, `parse?_point`** — the two shapes of a written number, without and with a
  point, each with an optional sign and an optional exponent.
* **`parse?_layOut`** — every branch of the layout is a numeral with the value of its digits.
* **`parse?_text`** — the text of a finite double is read as this double, up to the sign of zero.
-/

namespace Patchbay

namespace Numeral

/-! ## The number that a numeral stands for -/

/-- The magnitude of a numeral. -/
def value (n : Numeral) : ℚ := Text.natOfDigits n.digits * 10 ^ (n.exponent - n.fraction)

theorem toFloat_eq (n : Numeral) :
    n.toFloat = Double.ofMagnitude n.negative (Double.nearestBits n.value) := by
  rw [toFloat, Double.ofDecimal, Double.decimalBits_eq, value]

/-! ## The grammar -/

/-- What may follow the digits of a numeral: nothing that continues them. -/
def Ends (tail : List Char) : Prop := ∀ c ∈ tail.head?, Text.isDigit c = false ∧ c ≠ '.'

theorem digitRun_append {ds rest : List Char} (hds : ∀ c ∈ ds, Text.isDigit c)
    (hrest : ∀ c ∈ rest.head?, Text.isDigit c = false) : digitRun (ds ++ rest) = (ds, rest) := by
  have htake : rest.takeWhile Text.isDigit = [] := by
    cases rest with
    | nil => rfl
    | cons c rest => simp [hrest c (by simp)]
  have hdrop : rest.dropWhile Text.isDigit = rest := by
    cases rest with
    | nil => rfl
    | cons c rest => simp [hrest c (by simp)]
  rw [digitRun, List.span_eq_takeWhile_dropWhile, List.takeWhile_append_of_pos hds,
    List.dropWhile_append_of_pos hds, htake, hdrop, List.append_nil]

/-- A number without a point. -/
theorem parse?_whole {cs ds tail : List Char} {negative : Bool} {e : ℤ}
    (hsign : sign cs = (negative, ds ++ tail)) (hds : ∀ c ∈ ds, Text.isDigit c) (hne : ds ≠ [])
    (htail : Ends tail) (he : exponentPart? tail = some e) :
    parse? cs = some ⟨negative, ds, 0, e⟩ := by
  unfold parse?
  rw [hsign]
  dsimp only
  rw [digitRun_append hds fun c hc => (htail c hc).1]
  dsimp only
  cases tail with
  | nil => simp [hne, he]
  | cons c rest =>
      have hc : c ≠ '.' := (htail c (by simp)).2
      simp [hne, he, hc]

/-- A number with a point. -/
theorem parse?_point {cs ds fs tail : List Char} {negative : Bool} {e : ℤ}
    (hsign : sign cs = (negative, ds ++ '.' :: (fs ++ tail))) (hds : ∀ c ∈ ds, Text.isDigit c)
    (hne : ds ≠ []) (hfs : ∀ c ∈ fs, Text.isDigit c) (htail : Ends tail)
    (he : exponentPart? tail = some e) :
    parse? cs = some ⟨negative, ds ++ fs, fs.length, e⟩ := by
  have hpoint : ∀ c ∈ ('.' :: (fs ++ tail)).head?, Text.isDigit c = false := by
    intro c hc
    obtain rfl : '.' = c := by simpa using hc
    decide
  unfold parse?
  rw [hsign]
  dsimp only
  rw [digitRun_append hds hpoint]
  simp [digitRun_append hfs fun c hc => (htail c hc).1, hne, he]

theorem ends_nil : Ends [] := by
  intro c hc
  exact absurd hc (by simp)

theorem ends_exponent (cs : List Char) : Ends ('e' :: cs) := by
  intro c hc
  obtain rfl : 'e' = c := by simpa using hc
  decide

theorem exponentPart?_nil : exponentPart? [] = some 0 := rfl

/-- The written exponent is read as the exponent. -/
theorem exponentPart?_exponentText (e : ℤ) :
    exponentPart? ('e' :: Double.exponentText e) = some e := by
  set ds := (if (Text.digitsOfNat e.natAbs).length < 2 then '0' :: Text.digitsOfNat e.natAbs
    else Text.digitsOfNat e.natAbs) with hds
  have hvalue : Text.natOfDigits ds = e.natAbs := by
    rw [hds]
    split
    · rw [← List.singleton_append, Text.natOfDigits_append, Text.natOfDigits_digitsOfNat]
      simp [show Text.natOfDigits ['0'] = 0 from rfl]
    · rw [Text.natOfDigits_digitsOfNat]
  have hdigits : ds.all Text.isDigit = true := by
    rw [List.all_eq_true]
    intro c hc
    rw [hds] at hc
    split at hc
    · rcases List.mem_cons.mp hc with rfl | hc
      · decide
      · exact Text.isDigit_of_mem_digitsOfNat hc
    · exact Text.isDigit_of_mem_digitsOfNat hc
  have hne : ds.isEmpty = false := by
    rw [hds]
    split
    · rfl
    · simpa using Text.digitsOfNat_ne_nil e.natAbs
  have htext : Double.exponentText e = (if e < 0 then '-' else '+') :: ds := rfl
  rw [htext]
  by_cases he : e < 0
  · have habs : (e.natAbs : ℤ) = -e := by omega
    simp [he, exponentPart?, sign, hne, hdigits, hvalue, habs]
  · have habs : (e.natAbs : ℤ) = e := by omega
    simp [he, exponentPart?, sign, hne, hdigits, hvalue, habs]

/-! ## The layout -/

theorem isDigit_zeros {k : ℕ} {c : Char} (hc : c ∈ List.replicate k '0') : Text.isDigit c := by
  rw [List.eq_of_mem_replicate hc]
  decide

theorem isDigit_append {front back : List Char} (hf : ∀ c ∈ front, Text.isDigit c)
    (hb : ∀ c ∈ back, Text.isDigit c) : ∀ c ∈ front ++ back, Text.isDigit c := by
  intro c hc
  rcases List.mem_append.mp hc with h | h
  · exact hf c h
  · exact hb c h

/-- The value of digits with zeros behind them. -/
theorem natOfDigits_append_zeros (ds : List Char) (k : ℕ) :
    Text.natOfDigits (ds ++ List.replicate k '0') = Text.natOfDigits ds * 10 ^ k := by
  rw [Text.natOfDigits_append, Text.natOfDigits_zeros, List.length_replicate, Nat.add_zero]

/-- A numeral stands for digits, the first of which has the exponent. -/
def StandsFor (cs : List Char) (negative : Bool) (ds : List Char) (top : ℤ) : Prop :=
  ∃ n, parse? cs = some n ∧ n.negative = negative ∧
    n.value = Text.natOfDigits ds * 10 ^ (top - ds.length + 1)

section

variable {cs ds : List Char} {negative : Bool} {top : ℤ}

/-- Zeros stand between the point and the digits. -/
theorem standsFor_fraction
    (hsign : sign cs = (negative, '0' :: '.' :: (List.replicate (-top - 1).toNat '0' ++ ds)))
    (hds : ∀ c ∈ ds, Text.isDigit c) (htop : top < 0) : StandsFor cs negative ds top := by
  obtain ⟨k, hk⟩ := Int.eq_ofNat_of_zero_le (by omega : 0 ≤ -top - 1)
  have hsign' : sign cs = (negative, ['0'] ++ '.' :: ((List.replicate k '0' ++ ds) ++ [])) := by
    rw [hsign, hk]
    simp
  refine ⟨_, parse?_point hsign' (by simp; decide) (by simp)
    (isDigit_append (fun c => isDigit_zeros) hds) ends_nil exponentPart?_nil, rfl, ?_⟩
  rw [value, Text.natOfDigits_append, Text.natOfDigits_append, Text.natOfDigits_zeros]
  dsimp only
  rw [List.length_append, List.length_replicate, show Text.natOfDigits ['0'] = 0 from rfl]
  have hexp : (0 : ℤ) - (k + ds.length : ℕ) = top - ds.length + 1 := by omega
  rw [hexp]
  simp

/-- Zeros fill the places before the point; the point itself may be there or not. -/
theorem standsFor_whole {n : ℕ} {keepsPoint : Bool}
    (hsign : sign cs = (negative, ds ++ List.replicate (n + 1 - ds.length) '0' ++
      if keepsPoint then ['.', '0'] else []))
    (hds : ∀ c ∈ ds, Text.isDigit c) (hne : ds ≠ []) (hlen : ds.length ≤ n + 1) :
    StandsFor cs negative ds n := by
  obtain ⟨k, hk⟩ := Nat.exists_eq_add_of_le hlen
  have hzeros : n + 1 - ds.length = k := by omega
  have hexp : (n : ℤ) - ds.length + 1 = (k : ℤ) := by omega
  have hwhole := isDigit_append hds fun c => isDigit_zeros (k := k)
  rw [hzeros] at hsign
  unfold StandsFor
  rw [hexp]
  cases keepsPoint with
  | true =>
      have hsign' : sign cs = (negative, (ds ++ List.replicate k '0') ++ '.' :: (['0'] ++ [])) := hsign
      refine ⟨_, parse?_point hsign' hwhole (by simp [hne]) (by simp; decide) ends_nil
        exponentPart?_nil, rfl, ?_⟩
      rw [value, Text.natOfDigits_append, natOfDigits_append_zeros]
      simp [show Text.natOfDigits ['0'] = 0 from rfl, mul_assoc]
  | false =>
      have hsign' : sign cs = (negative, (ds ++ List.replicate k '0') ++ []) := hsign
      refine ⟨_, parse?_whole hsign' hwhole (by simp [hne]) ends_nil exponentPart?_nil, rfl, ?_⟩
      rw [value, natOfDigits_append_zeros]
      simp

/-- The point stands among the digits. -/
theorem standsFor_parted {n : ℕ} (hsign : sign cs = (negative, ds.take (n + 1) ++ '.' :: ds.drop (n + 1)))
    (hds : ∀ c ∈ ds, Text.isDigit c) (hne : ds ≠ []) (hlen : n + 1 < ds.length) :
    StandsFor cs negative ds n := by
  have hsign' : sign cs = (negative, ds.take (n + 1) ++ '.' :: (ds.drop (n + 1) ++ [])) := by
    rw [hsign, List.append_nil]
  refine ⟨_, parse?_point hsign' (fun c hc => hds c (List.mem_of_mem_take hc)) (by simp [hne])
    (fun c hc => hds c (List.mem_of_mem_drop hc)) ends_nil exponentPart?_nil, rfl, ?_⟩
  rw [value]
  dsimp only
  rw [List.take_append_drop, List.length_drop]
  have hexp : (0 : ℤ) - (ds.length - (n + 1) : ℕ) = n - ds.length + 1 := by omega
  rw [hexp]

/-- One digit stands before the point, if there is one, and the exponent follows the others. -/
theorem standsFor_scientific {d : Char} {more : List Char}
    (hsign : sign cs = (negative, match more with
      | [] => d :: 'e' :: Double.exponentText top
      | _ => d :: '.' :: (more ++ 'e' :: Double.exponentText top)))
    (hds : ∀ c ∈ d :: more, Text.isDigit c) : StandsFor cs negative (d :: more) top := by
  cases more with
  | nil =>
      have hsign' : sign cs = (negative, [d] ++ 'e' :: Double.exponentText top) := hsign
      refine ⟨_, parse?_whole hsign' hds (by simp) (ends_exponent _) (exponentPart?_exponentText top),
        rfl, ?_⟩
      simp [value]
  | cons next more =>
      have hsign' : sign cs =
          (negative, [d] ++ '.' :: ((next :: more) ++ 'e' :: Double.exponentText top)) := hsign
      refine ⟨_, parse?_point hsign' (fun c hc => hds c (by simp_all)) (by simp)
        (fun c hc => hds c (List.mem_cons_of_mem _ hc)) (ends_exponent _)
        (exponentPart?_exponentText top), rfl, ?_⟩
      have hexp : top - ((next :: more).length : ℤ) = top - ((d :: next :: more).length : ℕ) + 1 := by
        simp only [List.length_cons]
        omega
      rw [value, ← hexp]
      rfl

/-- **Every layout is a numeral with the value of its digits.**  Where the notation with an
exponent begins and whether a whole number keeps its point makes no difference. -/
theorem parse?_layOut (style : Double.Style) (hsign : sign cs = (negative, Double.layOut style ds top))
    (hds : ∀ c ∈ ds, Text.isDigit c) (hne : ds ≠ []) : StandsFor cs negative ds top := by
  unfold Double.layOut at hsign
  split at hsign
  · split at hsign
    · next htop => exact standsFor_fraction hsign hds htop
    · next htop =>
      obtain ⟨n, rfl⟩ := Int.eq_ofNat_of_zero_le (Int.not_lt.mp htop)
      rw [Int.toNat_natCast] at hsign
      dsimp only at hsign
      split at hsign
      · next hlen => exact standsFor_whole hsign hds hne hlen
      · next hlen => exact standsFor_parted hsign hds hne (Nat.lt_of_not_le hlen)
  · obtain ⟨d, more, rfl⟩ := List.exists_cons_of_ne_nil hne
    refine standsFor_scientific ?_ hds
    cases more <;> exact hsign

end

end Numeral

namespace Double

/-! ## Significands -/

/-- What is taken from the end of a run of digits is zeros. -/
theorem exists_zeros (cs : List Char) :
    ∃ k, cs = (cs.reverse.dropWhile (· == '0')).reverse ++ List.replicate k '0' := by
  have hzeros : ∀ c ∈ cs.reverse.takeWhile (· == '0'), c = '0' := by
    intro c hc
    simpa using List.mem_takeWhile_imp hc
  refine ⟨(cs.reverse.takeWhile (· == '0')).length, ?_⟩
  calc cs = (cs.reverse.takeWhile (· == '0') ++ cs.reverse.dropWhile (· == '0')).reverse := by
        rw [List.takeWhile_append_dropWhile, List.reverse_reverse]
    _ = (cs.reverse.dropWhile (· == '0')).reverse
          ++ (List.replicate (cs.reverse.takeWhile (· == '0')).length '0').reverse := by
        rw [List.reverse_append, ← List.eq_replicate_iff.mpr ⟨rfl, hzeros⟩]
    _ = _ := by rw [List.reverse_replicate]

/-- Leaving zeros out at the end changes the digits, but not the number. -/
theorem significand_spec {d : Digits} (hd : d.digits ≠ 0) :
    (∀ c ∈ d.significand.1, Text.isAsciiDigit c) ∧ d.significand.1 ≠ []
      ∧ (Text.natOfDigits d.significand.1 : ℚ)
            * 10 ^ (d.significand.2 - d.significand.1.length + 1)
          = d.digits * 10 ^ d.scale := by
  obtain ⟨k, hk⟩ := exists_zeros (Text.digitsOfNat d.digits)
  set ds := ((Text.digitsOfNat d.digits).reverse.dropWhile (· == '0')).reverse with hds
  have hsignificand : d.significand
      = (ds, d.scale + (Text.digitsOfNat d.digits).length - 1) := rfl
  have hvalue : Text.natOfDigits ds * 10 ^ k = d.digits := by
    rw [← Numeral.natOfDigits_append_zeros, ← hk, Text.natOfDigits_digitsOfNat]
  have hlength : (Text.digitsOfNat d.digits).length = ds.length + k := by
    rw [hk, List.length_append, List.length_replicate]
  rw [hsignificand, hlength]
  refine ⟨?_, ?_, ?_⟩
  · intro c hc
    apply Text.isAsciiDigit_of_mem_digitsOfNat (n := d.digits)
    rw [hk]
    exact List.mem_append_left _ hc
  · intro hnil
    have hnil' : ds = [] := hnil
    rw [hnil', show Text.natOfDigits [] = 0 from rfl, Nat.zero_mul] at hvalue
    exact hd hvalue.symm
  · have hexp : d.scale + (ds.length + k : ℕ) - 1 - ds.length + 1 = k + d.scale := by
      push_cast
      ring
    rw [hexp, zpow_add₀ (by norm_num), zpow_natCast, ← hvalue]
    push_cast
    ring

/-! ## Texts -/

/-- A layout begins with a digit. -/
theorem layOut_head (style : Style) {ds : List Char} (top : ℤ)
    (hds : ∀ c ∈ ds, Text.isAsciiDigit c) (hne : ds ≠ []) :
    ∃ c rest, layOut style ds top = c :: rest ∧ Text.isAsciiDigit c := by
  obtain ⟨d, more, rfl⟩ := List.exists_cons_of_ne_nil hne
  have hd : Text.isAsciiDigit d := hds d (by simp)
  unfold layOut
  split
  · split
    · exact ⟨'0', _, rfl, by decide⟩
    · dsimp only
      split
      · exact ⟨d, _, rfl, hd⟩
      · exact ⟨d, _, rfl, hd⟩
  · cases more with
    | nil => exact ⟨d, _, rfl, hd⟩
    | cons next more => exact ⟨d, _, rfl, hd⟩

/-- A sign in front of a digit is read as a sign. -/
theorem sign_signed {c : Char} (hc : Text.isAsciiDigit c) (rest : List Char) (negative : Bool) :
    Numeral.sign (if negative then '-' :: c :: rest else c :: rest) = (negative, c :: rest) := by
  cases negative with
  | true => rfl
  | false =>
      have hminus : c ≠ '-' := by
        rintro rfl
        exact absurd hc (by decide)
      have hplus : c ≠ '+' := by
        rintro rfl
        exact absurd hc (by decide)
      simp [Numeral.sign, hminus, hplus]

/-- The text of a zero, in any style. -/
theorem text_of_mantissa_eq_zero (style : Style) {x : Float} (h : isFinite x) (hm : (parts x).mantissa = 0) :
    text style x = if (parts x).negative && style.signsZero
      then "-" ++ (if style.keepsPoint then "0.0" else "0")
      else if style.keepsPoint then "0.0" else "0" := by
  unfold text
  rw [isNaN_of_isFinite h, if_neg (by simp)]
  dsimp only
  rw [h, Bool.not_true, if_neg (by simp), if_pos hm]

/-- The text of any other finite double lays its shortest digits out behind its sign. -/
theorem text_of_mantissa_ne_zero {style : Style} (hstyle : style.places = none) {x : Float}
    (h : isFinite x) (hm : (parts x).mantissa ≠ 0) :
    (text style x).toList =
      if (parts x).negative then '-' :: layOut style (shortest x).significand.1 (shortest x).significand.2
      else layOut style (shortest x).significand.1 (shortest x).significand.2 := by
  unfold text
  rw [isNaN_of_isFinite h, if_neg (by simp)]
  dsimp only
  rw [h, Bool.not_true, if_neg (by simp), if_neg hm, hstyle]
  exact String.toList_ofList

/-- Every text of zero is read as a zero. -/
theorem parse?_zero (style : Style) (negative : Bool) :
    ∃ n, Numeral.parse? (if negative && style.signsZero
          then "-" ++ (if style.keepsPoint then "0.0" else "0")
          else if style.keepsPoint then "0.0" else "0").toList = some n ∧ IsZero n.toFloat := by
  cases negative && style.signsZero <;> cases style.keepsPoint <;>
    exact ⟨_, rfl, isZero_ofMagnitude _⟩

/-- **The text of a finite double is read as this double**, up to the sign of zero, in every style
that shows the shortest digits. -/
theorem parse?_text {style : Style} (hstyle : style.places = none) {x : Float} (h : isFinite x) :
    ∃ n, Numeral.parse? (text style x).toList = some n ∧ SameNumber n.toFloat x := by
  by_cases hm : (parts x).mantissa = 0
  · rw [text_of_mantissa_eq_zero style h hm]
    obtain ⟨n, hparse, hzero⟩ := parse?_zero style (parts x).negative
    exact ⟨n, hparse, Or.inr ⟨hzero, isZero_of_mantissa hm⟩⟩
  · rw [text_of_mantissa_ne_zero hstyle h hm]
    obtain ⟨hascii, hne, hvalue⟩ := significand_spec (shortest_digits_ne_zero h hm)
    obtain ⟨c, rest, hhead, hc⟩ := layOut_head style (shortest x).significand.2 hascii hne
    have hsign := sign_signed hc rest (parts x).negative
    rw [← hhead] at hsign
    obtain ⟨n, hparse, hnegative, hn⟩ := Numeral.parse?_layOut style hsign
      (fun c hc => Text.isDigit_of_ascii (hascii c hc)) hne
    refine ⟨n, hparse, Or.inl ?_⟩
    rw [Numeral.toFloat_eq, hnegative, hn, hvalue, ← decimalBits_eq, decimalBits_shortest h hm,
      ofMagnitude_parts]

/-! ## Characters -/

/-- The characters that written numbers are made of.  No separator of a token is among them. -/
def IsNumberChar (c : Char) : Prop := Text.isAsciiDigit c ∨ c ∈ ['.', 'e', '+', '-']

theorem isNumberChar_exponentText (e : ℤ) : ∀ c ∈ exponentText e, IsNumberChar c := by
  have hdigits : ∀ c ∈ Text.digitsOfNat e.natAbs, IsNumberChar c :=
    fun c hc => Or.inl (Text.isAsciiDigit_of_mem_digitsOfNat hc)
  unfold exponentText
  intro c hc
  rcases List.mem_cons.mp hc with rfl | hc
  · split
    · exact Or.inr (by simp)
    · exact Or.inr (by simp)
  · split at hc
    · rcases List.mem_cons.mp hc with rfl | hc
      · exact Or.inl (by decide)
      · exact hdigits c hc
    · exact hdigits c hc

theorem isNumberChar_layOut (style : Style) {ds : List Char} (top : ℤ)
    (hds : ∀ c ∈ ds, Text.isAsciiDigit c) : ∀ c ∈ layOut style ds top, IsNumberChar c := by
  have hdigits : ∀ c ∈ ds, IsNumberChar c := fun c hc => Or.inl (hds c hc)
  have hzeros : ∀ k, ∀ c ∈ List.replicate k '0', IsNumberChar c := by
    intro k c hc
    rw [List.eq_of_mem_replicate hc]
    exact Or.inl (by decide)
  have hzero : IsNumberChar '0' := Or.inl (by decide)
  have hpoint : IsNumberChar '.' := Or.inr (by simp)
  have he : IsNumberChar 'e' := Or.inr (by simp)
  have hexponent := isNumberChar_exponentText top
  unfold layOut
  split
  · split
    · exact List.forall_mem_cons.mpr ⟨hzero, List.forall_mem_cons.mpr ⟨hpoint,
        List.forall_mem_append.mpr ⟨hzeros _, hdigits⟩⟩⟩
    · dsimp only
      split
      · refine List.forall_mem_append.mpr ⟨List.forall_mem_append.mpr ⟨hdigits, hzeros _⟩, ?_⟩
        split
        · exact List.forall_mem_cons.mpr ⟨hpoint, List.forall_mem_singleton.mpr hzero⟩
        · exact List.forall_mem_nil _
      · exact List.forall_mem_append.mpr ⟨fun c hc => hdigits c (List.mem_of_mem_take hc),
          List.forall_mem_cons.mpr ⟨hpoint, fun c hc => hdigits c (List.mem_of_mem_drop hc)⟩⟩
  · split
    · exact List.forall_mem_nil _
    · next d =>
      exact List.forall_mem_cons.mpr ⟨hdigits d (by simp), List.forall_mem_cons.mpr ⟨he, hexponent⟩⟩
    · next d more _ =>
      have hmore : ∀ c ∈ more, IsNumberChar c := fun c hc => hdigits c (List.mem_cons_of_mem _ hc)
      exact List.forall_mem_cons.mpr ⟨hdigits d (by simp), List.forall_mem_cons.mpr ⟨hpoint,
        List.forall_mem_append.mpr ⟨hmore, List.forall_mem_cons.mpr ⟨he, hexponent⟩⟩⟩⟩

/-- The text of a finite double is made of digits, points, signs and the mark of the exponent. -/
theorem isNumberChar_text {style : Style} (hstyle : style.places = none) {x : Float}
    (h : isFinite x) : ∀ c ∈ (text style x).toList, IsNumberChar c := by
  by_cases hm : (parts x).mantissa = 0
  · rw [text_of_mantissa_eq_zero style h hm]
    cases (parts x).negative && style.signsZero <;> cases style.keepsPoint <;>
      simp [IsNumberChar, Text.isAsciiDigit]
  · rw [text_of_mantissa_ne_zero hstyle h hm]
    obtain ⟨hascii, -, -⟩ := significand_spec (shortest_digits_ne_zero h hm)
    have hbody := isNumberChar_layOut style (shortest x).significand.2 hascii
    intro c hc
    split at hc
    · rcases List.mem_cons.mp hc with rfl | hc
      · exact Or.inr (by simp)
      · exact hbody c hc
    · exact hbody c hc

end Double

end Patchbay
