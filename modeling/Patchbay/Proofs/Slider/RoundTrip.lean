import Patchbay.Property.Table
import Patchbay.Proofs.Decimal.Plain
import Patchbay.Proofs.Result
import Patchbay.Proofs.Text.Cutting

/-!
# Packed slider values read back

A slider that was configured from its own packed text is packed in the same text again.

* `Slider.Settled` — a text for a limit that reads as a decimal which is written so again
* **`Slider.plain_spec`** — the limits that the working precision holds have such a text.
* `Slider.padded_spec` — the padded value reads as its rounding, and its padding tells the places.
* **`Decimal.quantizeTo?_clamped`** — the value that was read is moved into the limits, and is rounded to
  what it was.  This is load-bearing: rounding may leave the limits, as `1<0,0.6>` shows.
* `Slider.Repacked`, **`Slider.exists_repacked`** — what a packed text is read as, and that this is packed again in
  the same text
* `Node.outcome_packedSlider` — a live slider is packed with the limits that its description tells.
* **`Node.packedSlider_applySlider`** — the result, said of nodes.
-/

namespace Patchbay

namespace Decimal

/-! ## Rounding within limits -/

theorem eq_finite {d : Decimal} (h : d.isFinite = true) : ∃ negative c e, d = finite negative c e := by
  cases d with
  | finite negative c e => exact ⟨negative, c, e, rfl⟩
  | infinite => cases h
  | nan => cases h

/-- A rounding is its own rounding. -/
theorem quantizeTo?_self {negative : Bool} {c r : ℕ} {e scale : ℤ}
    (h : quantizeTo? scale (finite negative c e) = some (finite negative r scale)) :
    quantizeTo? scale (finite negative r scale) = some (finite negative r scale) := by
  by_cases hr : r = 0
  · subst hr
    rfl
  · refine quantizeTo?_between h hr ?_
    rcases le_total (magnitude c e) (magnitude r scale) with hle | hle
    · exact Or.inl ⟨hle, le_rfl⟩
    · exact Or.inr ⟨le_rfl, hle⟩

/-- Whatever lies between a number and its rounding, but is not as far, has the same rounding. -/
theorem quantizeTo?_of_value_between {negative : Bool} {c r : ℕ} {e scale : ℤ} {d : Decimal}
    (h : quantizeTo? scale (finite negative c e) = some (finite negative r scale))
    (hd : d.isFinite = true)
    (hbetween : (finite negative c e).value ≤ d.value ∧ d.value < (finite negative r scale).value ∨
      (finite negative r scale).value < d.value ∧ d.value ≤ (finite negative c e).value) :
    quantizeTo? scale d = some (finite negative r scale) := by
  -- zero is rounded to zero, and nothing lies between the two
  have hzero : magnitude c e = 0 → magnitude r scale = 0 := by
    intro hc
    have hsame := quantizeTo?_eq_some h
    rw [magnitude_eq_zero.mp hc, magnitude_zero, ← Nat.cast_zero, Double.nearest_natCast] at hsame
    injection hsame with _ hr _
    rw [hr, magnitude_zero]
  have hcpos := magnitude_nonneg c e
  have hrpos := magnitude_nonneg r scale
  obtain ⟨sign, i, j, rfl⟩ := eq_finite hd
  have hipos := magnitude_nonneg i j
  have hi : i ≠ 0 := by
    rintro rfl
    have hvalue : (finite sign 0 j).value = 0 := by cases sign <;> simp [magnitude_zero]
    rw [hvalue] at hbetween
    cases negative <;> simp only [value_positive, value_negative] at hbetween
    · rcases hbetween with ⟨hlow, hhigh⟩ | ⟨hlow, -⟩
      · exact absurd (hzero (le_antisymm hlow hcpos)) (by linarith)
      · linarith
    · rcases hbetween with ⟨-, hhigh⟩ | ⟨hlow, hhigh⟩
      · linarith
      · exact absurd (hzero (by linarith)) (by linarith)
  have hipos' := magnitude_pos hi j
  have hsign : sign = negative := by
    cases sign <;> cases negative <;>
      simp only [value_positive, value_negative] at hbetween <;> first
      | rfl
      | rcases hbetween with ⟨hlow, hhigh⟩ | ⟨hlow, hhigh⟩ <;> linarith
  subst hsign
  refine quantizeTo?_between h hi ?_
  cases sign <;> simp only [value_positive, value_negative] at hbetween
  · rcases hbetween with ⟨hlow, hhigh⟩ | ⟨hlow, hhigh⟩
    · exact Or.inl ⟨hlow, hhigh.le⟩
    · exact Or.inr ⟨hlow.le, hhigh⟩
  · rcases hbetween with ⟨hlow, hhigh⟩ | ⟨hlow, hhigh⟩
    · exact Or.inr ⟨by linarith, by linarith⟩
    · exact Or.inl ⟨by linarith, by linarith⟩

theorem lt_iff_of_isFinite {a b : Decimal} (ha : a.isFinite = true) (hb : b.isFinite = true) :
    a.lt b = true ↔ a.value < b.value := by
  obtain ⟨n₁, c₁, e₁, rfl⟩ := eq_finite ha
  obtain ⟨n₂, c₂, e₂, rfl⟩ := eq_finite hb
  exact lt_iff

theorem larger_spec {a b : Decimal} (ha : a.isFinite = true) (hb : b.isFinite = true) :
    (a.larger b).isFinite = true ∧ (a.larger b).value = max a.value b.value := by
  unfold larger
  split
  · next hlt =>
    rw [lt_iff_of_isFinite ha hb] at hlt
    exact ⟨hb, (max_eq_right hlt.le).symm⟩
  · next hle =>
    rw [lt_iff_of_isFinite ha hb] at hle
    exact ⟨ha, (max_eq_left (not_lt.mp hle)).symm⟩

theorem smaller_spec {a b : Decimal} (ha : a.isFinite = true) (hb : b.isFinite = true) :
    (a.smaller b).isFinite = true ∧ (a.smaller b).value = min a.value b.value := by
  unfold smaller
  split
  · next hlt =>
    rw [lt_iff_of_isFinite hb ha] at hlt
    exact ⟨hb, (min_eq_right hlt.le).symm⟩
  · next hle =>
    rw [lt_iff_of_isFinite hb ha] at hle
    exact ⟨ha, (min_eq_left (not_lt.mp hle)).symm⟩

/-- **A rounded value may be moved into limits that the value itself lies in.** -/
theorem quantizeTo?_clamped {negative : Bool} {c r : ℕ} {e scale : ℤ} {low high : Decimal}
    (h : quantizeTo? scale (finite negative c e) = some (finite negative r scale))
    (hlow : low.isFinite = true) (hhigh : high.isFinite = true)
    (hle : low.value ≤ (finite negative c e).value)
    (hle' : (finite negative c e).value ≤ high.value) :
    quantizeTo? scale (((finite negative r scale).larger low).smaller high) =
      some (finite negative r scale) := by
  have hself := quantizeTo?_self h
  unfold larger smaller
  by_cases hbelow : (finite negative r scale).lt low = true
  · have hnot : ¬ high.lt low = true := by
      rw [lt_iff_of_isFinite hhigh hlow]
      exact not_lt_of_ge (hle.trans hle')
    rw [if_pos hbelow, if_neg hnot]
    rw [lt_iff_of_isFinite rfl hlow] at hbelow
    exact quantizeTo?_of_value_between h hlow (Or.inr ⟨hbelow, hle⟩)
  · rw [if_neg hbelow]
    split
    · next habove =>
      rw [lt_iff_of_isFinite hhigh rfl] at habove
      exact quantizeTo?_of_value_between h hhigh (Or.inl ⟨hle', habove⟩)
    · exact hself

theorem leading_of_quantizeTo? {negative : Bool} {c r : ℕ} {e scale : ℤ} (hscale : scale ≤ 0)
    (h : quantizeTo? scale (finite negative c e) = some (finite negative r scale)) :
    leading r scale ≤ maxExponent := by
  by_cases hc : c = 0
  · subst hc
    have hsame := quantizeTo?_eq_some h
    rw [magnitude_zero, ← Nat.cast_zero, Double.nearest_natCast] at hsame
    obtain rfl : r = 0 := by simpa using hsame
    have hdigit : leading 0 scale = scale := by
      unfold leading
      have hcount : Text.digitCount 0 = 1 := rfl
      rw [hcount]
      ring
    rw [hdigit]
    exact hscale.trans (by decide)
  · obtain ⟨-, ⟨-, hfits⟩, hsame⟩ := (quantizeTo?_eq_some_iff hc).mp h
    obtain rfl : r = _ := by simpa using hsame
    exact hfits

/-! ## Plain texts of decimals -/

/-- How many places a plain text has after its point. -/
theorem writtenPlaces_plainText (negative : Bool) (c : ℕ) {e : ℤ} (he : e ≤ 0) :
    Slider.writtenPlaces (finite negative c e).plainText.toList = (-e).toNat := by
  have hdigits : ∀ d ∈ Text.digitsOfNat c, d ≠ '.' := by
    rintro d hd rfl
    exact absurd (Text.isAsciiDigit_of_mem_digitsOfNat hd) (by decide)
  have hmin : (if c = 0 then min e 0 else e) = e := by
    split
    · exact min_eq_left he
    · rfl
  have hlength : leading c e + 1 = e + (Text.digitsOfNat c).length := by
    unfold leading Text.digitCount
    ring
  rw [toList_plainText, hmin, hlength]
  generalize Text.digitsOfNat c = ds at hdigits
  -- neither a sign nor digits hold a point
  have hcut : ∀ before after : List Char, (∀ d ∈ before, d ≠ '.') →
      Slider.writtenPlaces (signText negative ++ (before ++ '.' :: after)) = after.length := by
    intro before after hbefore
    have hnone : '.' ∉ signText negative ++ before := by
      rw [List.mem_append, not_or]
      refine ⟨?_, fun hmem => hbefore '.' hmem rfl⟩
      cases negative <;> decide
    unfold Slider.writtenPlaces
    rw [← List.append_assoc, Text.cut_append hnone]
  unfold pointed
  split
  · next hwhole =>
    have hzero : ∀ d ∈ ['0'], d ≠ '.' := by
      intro d hd
      rw [List.mem_singleton.mp hd]
      decide
    refine (hcut ['0'] _ hzero).trans ?_
    rw [List.length_append, List.length_replicate]
    omega
  · split
    · next hlong =>
      have hzero : e = 0 := by omega
      subst hzero
      have hnone : '.' ∉ signText negative ++
          (ds ++ List.replicate ((0 + (ds.length : ℤ)).toNat - ds.length) '0') := by
        have hlen : (0 + (ds.length : ℤ)).toNat - ds.length = 0 := by omega
        rw [hlen, List.replicate_zero, List.append_nil, List.mem_append, not_or]
        refine ⟨?_, fun hmem => hdigits '.' hmem rfl⟩
        cases negative <;> decide
      unfold Slider.writtenPlaces
      rw [Text.cut_of_notMem hnone]
      rfl
    · next hshort =>
      rw [hcut _ _ fun d hd => hdigits d (List.mem_of_mem_take hd), List.length_drop]
      omega

end Decimal

namespace Slider

open Decimal

/-! ## Limits -/

/-- A text for a limit, and what it reads as: a decimal of a value that is written so again. -/
structure Settled (x : ℚ) (s : String) (d : Decimal) : Prop where
  chars : ∀ c ∈ s.toList, IsPlainChar c
  nonempty : s.toList ≠ []
  read : parse? s.toList = some d
  finite : d.isFinite = true
  value : d.value = x
  again : plain (.decimal d) = .ok s

theorem plain_zero (negative : Bool) (e : ℤ) : plain (.decimal (.finite negative 0 e)) = .ok "0" := rfl

theorem plain_of_normalize? {negative : Bool} {c : ℕ} {e : ℤ} {n : Decimal} (hc : c ≠ 0)
    (h : normalize? (.finite negative c e) = some n) :
    plain (.decimal (.finite negative c e)) = .ok n.plainText := by
  have hzero : (Decimal.finite negative c e).isZero = false := by simpa [isZero] using hc
  unfold plain toDecimal
  simp only [bind, Except.bind, hzero, h]
  rfl

/-- The text of a zero is settled. -/
theorem settled_zero (negative : Bool) (e : ℤ) :
    Settled (Decimal.finite negative 0 e).value "0" (.finite false 0 0) where
  chars := by
    intro c hc
    rw [List.mem_singleton.mp hc]
    exact Or.inl (by decide)
  nonempty := by decide
  read := parse?_plainText false (c := 0) (e := 0) (by decide) (by decide)
  finite := rfl
  value := by cases negative <;> simp [magnitude_zero]
  again := plain_zero _ _

/-- **A limit that the working precision holds has a settled text.** -/
theorem plain_spec {d : Decimal} (hd : d.isFinite = true) (h : Held d.value) :
    ∃ s d', plain (.decimal d) = .ok s ∧ Settled d.value s d' := by
  obtain ⟨negative, c, e, rfl⟩ := eq_finite hd
  by_cases hc : c = 0
  · subst hc
    exact ⟨"0", .finite false 0 0, plain_zero _ _, settled_zero negative e⟩
  · obtain ⟨i, j, hnormal, hbare, hsame, hscale, hlead⟩ := normalize?_held hc h
    have hi : i ≠ 0 := by
      rintro rfl
      exact hbare rfl
    have hread := parse?_plainText negative (hscale.trans' (by decide)) (hlead.trans (by decide))
    generalize hd' : (if j ≤ 0 then Decimal.finite negative i j
      else Decimal.finite negative (i * 10 ^ j.toNat) 0) = d' at hread
    obtain ⟨i', j', rfl, hsame'⟩ : ∃ i' j', d' = .finite negative i' j' ∧
        magnitude i' j' = magnitude i j := by
      split at hd'
      · exact ⟨i, j, hd'.symm, rfl⟩
      · next hj =>
        have hexponent : (0 : ℤ) + j.toNat = j := by omega
        refine ⟨i * 10 ^ j.toNat, 0, hd'.symm, ?_⟩
        rw [magnitude_shift, hexponent]
    have hi' : i' ≠ 0 := by
      rintro rfl
      rw [magnitude_zero] at hsame'
      exact hi (magnitude_eq_zero.mp hsame'.symm)
    have hvalue : ∀ {c' : ℕ} {e' : ℤ}, magnitude c' e' = magnitude c e →
        (Decimal.finite negative c' e').value = (Decimal.finite negative c e).value := by
      intro c' e' hmag
      cases negative <;> simp [hmag]
    refine ⟨_, .finite negative i' j', plain_of_normalize? hc hnormal,
      ⟨isPlainChar_plainText negative i j, ?_, hread, rfl, hvalue (hsame'.trans hsame), ?_⟩⟩
    · rw [toList_plainText]
      obtain ⟨c, rest, hpointed, -⟩ := pointed_head
        (fun d hd => Text.isAsciiDigit_of_mem_digitsOfNat hd) (Text.digitsOfNat_ne_nil i)
        (leading i (if i = 0 then min j 0 else j) + 1)
      rw [hpointed]
      simp
    · -- its normal form is the one that it was read from
      obtain ⟨k, l, hnormal', hbare', hsame'', -, -⟩ := normalize?_held hi'
        (hvalue (hsame'.trans hsame) ▸ h)
      obtain ⟨rfl, rfl⟩ := eq_of_magnitude_eq hbare' hbare (hsame''.trans hsame')
      exact plain_of_normalize? hi' hnormal'

/-- A limit that the working precision has all digits of is not too large either, if it has a text. -/
theorem held_of_plain {d : Decimal} {s : String} (hd : d.isFinite = true) (hprecise : Precise d.value)
    (h : plain (.decimal d) = .ok s) : Held d.value := by
  obtain ⟨negative, c, e, rfl⟩ := eq_finite hd
  refine hprecise.held fun hc => ?_
  cases hnormal : normalize? (.finite negative c e) with
  | some n => exact leading_le_of_normalize? hc hnormal
  | none =>
      have hzero : (Decimal.finite negative c e).isZero = false := by simpa [isZero] using hc
      unfold plain toDecimal at h
      simp only [bind, Except.bind, hzero, hnormal] at h
      cases h

/-! ## Values -/

/-- A text for a value, and what it reads as: the value rounded to its places, which the padding tells.  With
these places, every value of the same rounding is written so again. -/
structure Padded (d : Decimal) (places : ℤ) (s : String) (q : Decimal) : Prop where
  chars : ∀ c ∈ s.toList, IsPlainChar c
  nonempty : s.toList ≠ []
  read : parse? s.toList = some q
  /-- No result has more places than those of the smallest decimal. -/
  places : (writtenPlaces s.toList : ℤ) = min (max places 0) (-minScale)
  rounding : quantizeTo? (-writtenPlaces s.toList) d = some q
  again : ∀ d', quantizeTo? (-writtenPlaces s.toList) d' = some q →
    padded (.decimal d') (writtenPlaces s.toList) = .ok s

/-- **A padded value reads as its rounding.** -/
theorem padded_spec {d : Decimal} {places : ℤ} {s : String} (hd : d.isFinite = true)
    (h : padded (.decimal d) places = .ok s) : ∃ q, Padded d places s q := by
  obtain ⟨negative, c, e, rfl⟩ := eq_finite hd
  unfold padded at h
  dsimp only [toDecimal] at h
  split at h
  · cases h
  · next hshift =>
    unfold quantize? at h
    rw [if_neg hshift] at h
    generalize hscale : max (-(places.toNat : ℤ)) minScale = scale at h
    have hscale0 : scale ≤ 0 := by
      rw [← hscale]
      exact max_le (by omega) (by decide)
    have hscale' : minScale ≤ scale := hscale ▸ le_max_right _ _
    cases hq : quantizeTo? scale (.finite negative c e) with
    | none =>
        rw [hq] at h
        cases h
    | some q =>
        rw [hq] at h
        cases h
        obtain rfl := quantizeTo?_eq_some hq
        generalize Double.nearest (magnitude c (e - scale)) = r at hq
        have hplaces := writtenPlaces_plainText negative r hscale0
        have hback : -(writtenPlaces (Decimal.finite negative r scale).plainText.toList : ℤ) = scale := by
          rw [hplaces]
          omega
        have hread := parse?_plainText negative (c := r) (hscale'.trans' (by decide))
          ((leading_of_quantizeTo? hscale0 hq).trans (by decide))
        rw [if_pos hscale0] at hread
        refine ⟨.finite negative r scale, isPlainChar_plainText _ _ _, ?_, hread, ?_, ?_, fun d' hd' => ?_⟩
        · rw [toList_plainText]
          obtain ⟨c, rest, hpointed, -⟩ := pointed_head
            (fun d hd => Text.isAsciiDigit_of_mem_digitsOfNat hd) (Text.digitsOfNat_ne_nil r)
            (leading r (if r = 0 then min scale 0 else scale) + 1)
          rw [hpointed]
          simp
        · omega
        · rw [hback]
          exact hq
        · -- the written places lead to the same last digit
          rw [hback] at hd'
          have hsame : max (-(((-scale).toNat : ℕ) : ℤ)) minScale = scale := by omega
          unfold padded quantize?
          dsimp only [toDecimal]
          rw [hplaces, Int.toNat_natCast, if_neg (by omega), if_neg (by omega), hsame, hd']

/-- What a padded value reads as may be moved into limits that the value lies in: it is written in the same way. -/
theorem Padded.clamped {d q low high : Decimal} {places : ℤ} {s : String} (h : Padded d places s q)
    (hd : d.isFinite = true) (hlow : low.isFinite = true) (hhigh : high.isFinite = true)
    (hle : low.value ≤ d.value) (hle' : d.value ≤ high.value) :
    padded (.decimal ((q.larger low).smaller high)) (writtenPlaces s.toList) = .ok s := by
  obtain ⟨negative, c, e, rfl⟩ := eq_finite hd
  have hrounding := h.rounding
  obtain rfl := quantizeTo?_eq_some hrounding
  exact h.again _ (quantizeTo?_clamped hrounding hlow hhigh hle hle')

theorem Padded.isFinite {d q : Decimal} {places : ℤ} {s : String} (h : Padded d places s q)
    (hd : d.isFinite = true) : q.isFinite = true := by
  obtain ⟨negative, c, e, rfl⟩ := eq_finite hd
  rw [quantizeTo?_eq_some h.rounding]
  rfl

/-- The number that a padded value reads as. -/
theorem Padded.value {d q : Decimal} {places : ℤ} {s : String} (h : Padded d places s q)
    (hd : d.isFinite = true) : q.value = rounded (writtenPlaces s.toList) d.value := by
  obtain ⟨negative, c, e, rfl⟩ := eq_finite hd
  exact value_of_quantizeTo? h.rounding

/-! ## Packed texts -/

variable {value low high : String}

/-- A packed text is taken apart into the texts it was made of. -/
theorem cutPacked?_pack (hvalue : ∀ c ∈ value.toList, IsPlainChar c)
    (hlow : ∀ c ∈ low.toList, IsPlainChar c) (hhigh : ∀ c ∈ high.toList, IsPlainChar c)
    (hvalue' : value.toList ≠ []) (hlow' : low.toList ≠ []) (hhigh' : high.toList ≠ []) :
    cutPacked? (Text.trimChars (value ++ "<" ++ low ++ "," ++ high ++ ">").toList) =
      some (value.toList, low.toList, high.toList) := by
  have hlist : (value ++ "<" ++ low ++ "," ++ high ++ ">").toList =
      value.toList ++ '<' :: (low.toList ++ ',' :: high.toList) ++ ['>'] := by
    simp [String.toList_append]
  obtain ⟨c, rest, hcons⟩ := List.exists_cons_of_ne_nil hvalue'
  have htrim : Text.trimChars (value ++ "<" ++ low ++ "," ++ high ++ ">").toList =
      value.toList ++ '<' :: (low.toList ++ ',' :: high.toList) ++ ['>'] := by
    have hc : Text.isBlank c = false := (hvalue c (by rw [hcons]; simp)).isNumberChar.isBlank
    rw [hlist, hcons]
    exact Text.trimBy_of_ends hc (by decide) _
  have hfeed : (value.toList ++ '<' :: (low.toList ++ ',' :: high.toList) ++ ['>']).contains '\n' = false := by
    have hnone : ∀ s : String, (∀ c ∈ s.toList, IsPlainChar c) → '\n' ∉ s.toList :=
      fun s hs => notMem_of_isPlainChar hs (by decide)
    simp [hnone value hvalue, hnone low hlow, hnone high hhigh]
  have hreverse : (value.toList ++ '<' :: (low.toList ++ ',' :: high.toList) ++ ['>']).reverse =
      '>' :: (value.toList ++ '<' :: (low.toList ++ ',' :: high.toList)).reverse := by
    rw [List.reverse_append]
    rfl
  have hopen : ∀ s : String, (∀ c ∈ s.toList, IsPlainChar c) → '<' ∉ s.toList :=
    fun s hs => notMem_of_isPlainChar hs (by decide)
  have hcomma : ∀ s : String, (∀ c ∈ s.toList, IsPlainChar c) → ',' ∉ s.toList :=
    fun s hs => notMem_of_isPlainChar hs (by decide)
  have hlimits : cutLimits? (low.toList ++ ',' :: high.toList) = some (low.toList, high.toList) := by
    unfold cutLimits?
    rw [Text.cutsFromRight_append (hcomma low hlow) (hcomma high hhigh), List.find?_cons_of_pos]
    simp [hlow', hhigh']
  have hnone : '<' ∉ low.toList ++ ',' :: high.toList := by
    simp [hopen low hlow, hopen high hhigh]
  unfold cutPacked?
  rw [htrim, hfeed, if_neg (by decide), hreverse]
  change (Text.cutsFromRight '<' (List.reverse (List.reverse _))).findSome? _ = _
  rw [List.reverse_reverse, Text.cutsFromRight_append (hopen value hvalue) hnone]
  simp [List.findSome?, hvalue', hlimits]

/-- What a packed text is read as: the value moved into the limits, and the places of its text. -/
theorem unpack_pack {a b : ℚ} {q low' high' : Decimal} (hvalue : ∀ c ∈ value.toList, IsPlainChar c)
    (hvalue' : value.toList ≠ []) (hread : parse? value.toList = some q) (hq : q.isFinite = true)
    (hlow : Settled a low low') (hhigh : Settled b high high') (hle : a ≤ b) :
    unpack (value ++ "<" ++ low ++ "," ++ high ++ ">") =
      .ok ⟨(q.larger low').smaller high', low', high', writtenPlaces value.toList⟩ := by
  have htrim : ∀ s : String, (∀ c ∈ s.toList, IsPlainChar c) → Text.trimChars s.toList = s.toList :=
    fun s hs => Text.trimBy_eq_self fun c hc => (hs c hc).isNumberChar.isBlank
  have hnot : high'.lt low' = false := by
    rw [Bool.eq_false_iff, Ne, lt_iff_of_isFinite hhigh.finite hlow.finite, hlow.value, hhigh.value]
    exact not_lt_of_ge hle
  unfold unpack
  rw [cutPacked?_pack hvalue hlow.chars hhigh.chars hvalue' hlow.nonempty hhigh.nonempty]
  simp only [htrim value hvalue, htrim low hlow.chars, htrim high hhigh.chars, hread, hlow.read,
    hhigh.read, hq, hlow.finite, hhigh.finite, hnot, Bool.and_self, if_true, Bool.false_eq_true,
    if_false]

/-- A value with limits that it lies in. -/
structure Packed.Ordered (p : Packed) : Prop where
  value : p.value.isFinite = true
  minimum : p.minimum.isFinite = true
  maximum : p.maximum.isFinite = true
  lower : p.minimum.value ≤ p.value.value
  upper : p.value.value ≤ p.maximum.value

/-- What a packed text of a value with its limits is read as, and that it is written so again. -/
structure Repacked (p : Packed) (value low high : Decimal) (places : ℤ) (t : String) : Prop where
  read : unpack t = .ok p
  ordered : p.Ordered
  minimum : p.minimum.value = low.value
  maximum : p.maximum.value = high.value
  places : (p.places : ℤ) = min (max places 0) (-minScale)
  value : p.value.value = min (max (rounded p.places value.value) low.value) high.value
  text : p.text = .ok t
  /-- The limits keep their texts. -/
  settled : ∃ low' high', Settled low.value low' p.minimum ∧ Settled high.value high' p.maximum

/-- **A packed text is read as the rounded value, moved into the limits**, and what is read is packed in the same
text. -/
theorem exists_repacked {value low high : Decimal} {places : ℤ} {t : String} (hvalue : value.isFinite = true)
    (hlow : low.isFinite = true) (hhigh : high.isFinite = true) (hlow' : Precise low.value)
    (hhigh' : Precise high.value) (hle : low.value ≤ value.value) (hle' : value.value ≤ high.value)
    (h : pack (.decimal value) (.decimal low) (.decimal high) places = .ok t) :
    ∃ p, Repacked p value low high places t := by
  obtain ⟨s, hs, h⟩ := exists_of_bind_eq_ok h
  obtain ⟨l, hl, h⟩ := exists_of_bind_eq_ok h
  obtain ⟨u, hu, h⟩ := exists_of_bind_eq_ok h
  cases h
  obtain ⟨q, hq⟩ := padded_spec hvalue hs
  obtain ⟨l', a, hl', ha⟩ := plain_spec hlow (held_of_plain hlow hlow' hl)
  obtain ⟨u', b, hu', hb⟩ := plain_spec hhigh (held_of_plain hhigh hhigh' hu)
  obtain rfl : l' = l := Except.ok.inj (hl'.symm.trans hl)
  obtain rfl : u' = u := Except.ok.inj (hu'.symm.trans hu)
  have hfinite := hq.isFinite hvalue
  obtain ⟨hlarger, hmax⟩ := larger_spec hfinite ha.finite
  obtain ⟨hsmaller, hmin⟩ := smaller_spec hlarger hb.finite
  have hclamped : ((q.larger a).smaller b).value =
      min (max (rounded (writtenPlaces s.toList) value.value) low.value) high.value := by
    rw [hmin, hmax, hq.value hvalue, ha.value, hb.value]
  have hagain := hq.clamped hvalue ha.finite hb.finite (ha.value ▸ hle) (hb.value ▸ hle')
  refine ⟨⟨(q.larger a).smaller b, a, b, writtenPlaces s.toList⟩,
    unpack_pack hq.chars hq.nonempty hq.read hfinite ha hb (hle.trans hle'),
    ⟨hsmaller, ha.finite, hb.finite, ?_, ?_⟩, ha.value, hb.value, hq.places, hclamped, ?_,
    ⟨l', u', ha, hb⟩⟩
  · rw [hclamped, ha.value]
    exact le_min (le_max_right _ _) (hle.trans hle')
  · rw [hclamped, hb.value]
    exact min_le_right _ _
  · unfold Packed.text pack
    rw [hagain, ha.again, hb.again]
    rfl

/-! ## Descriptions -/

/-- A line is cut at its colon into the key and the value, without the blank between them. -/
theorem cut_field (key : String) {value : String} {first : Char} {rest : List Char}
    (hkey : key.toList = first :: rest) (hfirst : Text.isBlank first = false) (hcolon : ':' ∉ key.toList)
    (hvalue : ∀ c ∈ value.toList, Text.isBlank c = false) (hne : value.toList ≠ []) :
    Text.cut ':' (Text.trimChars (key ++ ": " ++ value).toList) =
        (key.toList, some (' ' :: value.toList)) ∧
      Text.trimChars (' ' :: value.toList) = value.toList := by
  have hlast := List.dropLast_append_getLast hne
  have hlist : (key ++ ": " ++ value).toList = key.toList ++ ':' :: ' ' :: value.toList := by
    simp [String.toList_append]
  have htrim : Text.trimChars (key ++ ": " ++ value).toList = (key ++ ": " ++ value).toList := by
    rw [hlist, hkey, ← hlast]
    have hends := Text.trimBy_of_ends hfirst (hvalue _ (List.getLast_mem hne))
      (rest ++ ':' :: ' ' :: value.toList.dropLast)
    simpa [Text.trimChars] using hends
  refine ⟨?_, (Text.trimBy_cons (by decide) _).trans (Text.trimBy_eq_self hvalue)⟩
  rw [htrim, hlist, Text.cut_append hcolon]

variable {d : Description}

theorem readLine_rounding (r : Rounding) :
    d.readLine ("Rounding" ++ ": " ++ r.code).toList = .ok { d with rounding := r } := by
  cases r <;> rfl

theorem readLine_places {i : ℤ} (hi : Text.digitCount i.natAbs ≤ integerDigitLimit) :
    d.readLine ("Accuracy" ++ ": " ++ Text.integerText i).toList = .ok { d with places := i } := by
  have hchars := Token.isNumberChar_integerText i
  have hne : (Text.integerText i).toList ≠ [] := by
    rw [Token.integerText_toList]
    split
    · exact List.cons_ne_nil _ _
    · exact Text.digitsOfNat_ne_nil _
  obtain ⟨hcut, htrim⟩ := cut_field "Accuracy" rfl (by decide) (by decide)
    (fun c hc => (hchars c hc).isBlank) hne
  unfold Description.readLine
  rw [hcut]
  dsimp only
  rw [htrim, if_pos (by decide), Token.readInt?_integerText hi]

theorem readLine_lower {x : ℚ} {s : String} {v : Decimal} (hs : Settled x s v) :
    d.readLine ("Lower limit" ++ ": " ++ s).toList = .ok { d with lower := v } := by
  obtain ⟨hcut, htrim⟩ := cut_field "Lower limit" rfl (by decide) (by decide)
    (fun c hc => (hs.chars c hc).isNumberChar.isBlank) hs.nonempty
  unfold Description.readLine
  rw [hcut]
  dsimp only
  rw [htrim, if_neg (by decide), if_pos (by decide), readLimit, hs.read]
  rfl

theorem readLine_upper {x : ℚ} {s : String} {v : Decimal} (hs : Settled x s v) :
    d.readLine ("Upper limit" ++ ": " ++ s).toList = .ok { d with upper := v } := by
  obtain ⟨hcut, htrim⟩ := cut_field "Upper limit" rfl (by decide) (by decide)
    (fun c hc => (hs.chars c hc).isNumberChar.isBlank) hs.nonempty
  unfold Description.readLine
  rw [hcut]
  dsimp only
  rw [htrim, if_neg (by decide), if_neg (by decide), if_pos (by decide), readLimit, hs.read]
  rfl

/-- **The text block of a slider is read back**, with its limits as their texts give them. -/
theorem readDescription_describe (r : Rounding) {places : ℤ}
    (hplaces : Text.digitCount places.natAbs ≤ integerDigitLimit) {a b : ℚ} {low' high' : Decimal}
    (hlow : Settled a low low') (hhigh : Settled b high high') :
    (readDescription ("Rounding: " ++ r.code ++ "\nAccuracy: " ++ Text.integerText places
      ++ "\nLower limit: " ++ low ++ "\nUpper limit: " ++ high)).value =
      ⟨places, low', high', r⟩ := by
  have hlist : ("Rounding: " ++ r.code ++ "\nAccuracy: " ++ Text.integerText places
      ++ "\nLower limit: " ++ low ++ "\nUpper limit: " ++ high).toList =
      ("Rounding" ++ ": " ++ r.code).toList ++ '\n' ::
        (("Accuracy" ++ ": " ++ Text.integerText places).toList ++ '\n' ::
          (("Lower limit" ++ ": " ++ low).toList ++ '\n' :: ("Upper limit" ++ ": " ++ high).toList)) := by
    simp [String.toList_append]
  have hfield : ∀ key value : String, (∀ c ∈ key.toList, Text.isLineBreak c = false) →
      (∀ c ∈ value.toList, Text.isLineBreak c = false) →
        ∀ c ∈ (key ++ ": " ++ value).toList, Text.isLineBreak c = false := by
    intro key value hkey hvalue c hc
    rw [String.toList_append, String.toList_append] at hc
    rcases List.mem_append.mp hc with hc | hc
    · rcases List.mem_append.mp hc with hc | hc
      · exact hkey c hc
      · exact (show ∀ c ∈ ": ".toList, Text.isLineBreak c = false by simp [Text.isLineBreak]) c hc
    · exact hvalue c hc
  have hcode : ∀ c ∈ r.code.toList, Text.isLineBreak c = false := by
    cases r <;> simp [Rounding.code, Text.isLineBreak]
  have hplain : ∀ s : String, (∀ c ∈ s.toList, Double.IsNumberChar c) →
      ∀ c ∈ s.toList, Text.isLineBreak c = false :=
    fun s hs c hc => Text.isLineBreak_of_isBlank (hs c hc).isBlank
  have hlines : Text.lines ("Rounding: " ++ r.code ++ "\nAccuracy: " ++ Text.integerText places
      ++ "\nLower limit: " ++ low ++ "\nUpper limit: " ++ high).toList =
      [("Rounding" ++ ": " ++ r.code).toList, ("Accuracy" ++ ": " ++ Text.integerText places).toList,
        ("Lower limit" ++ ": " ++ low).toList, ("Upper limit" ++ ": " ++ high).toList] := by
    rw [hlist, Text.lines_append (hfield _ _ (by simp [Text.isLineBreak]) hcode),
      Text.lines_append (hfield _ _ (by simp [Text.isLineBreak]) (hplain _ (Token.isNumberChar_integerText places))),
      Text.lines_append (hfield _ _ (by simp [Text.isLineBreak]) (hplain _ fun c hc => (hlow.chars c hc).isNumberChar)),
      Text.lines_of_noBreak (hfield _ _ (by simp [Text.isLineBreak])
        (hplain _ fun c hc => (hhigh.chars c hc).isNumberChar))]
    simp [String.toList_append]
  unfold readDescription
  rw [hlines]
  simp only [List.foldlM_cons, List.foldlM_nil, readLine_rounding, readLine_places hplaces,
    readLine_lower hlow, readLine_upper hhigh, bind, Except.bind, pure, Except.pure, hlow.finite,
    hhigh.finite, Bool.and_self, if_true]

end Slider

/-! ## Nodes -/

namespace Node

/-- The attributes of a slider: its value and its limits, and how many places it shows. -/
structure IsSlider (n : Node) (value low high : Decimal) (places : ℤ) : Prop where
  kind : n.kind = .slider
  value : n.attributes.get? .value = some (.decimal value)
  minimum : n.attributes.get? .minimum = some (.decimal low)
  maximum : n.attributes.get? .maximum = some (.decimal high)
  places : n.attributes.get? .decimals = some (.int places)

theorem IsSlider.describe_eq {n : Node} {value low high : Decimal} {places : ℤ} (h : n.IsSlider value low high places) :
    n.describe = (Slider.describe (Rounding.read (n.read .rounding)) (.int places) (.decimal low)
      (.decimal high)).map .str := by
  have hread : ∀ {a v}, n.attributes.get? a = some v → (n.attributes.get? a).getD .null = v := by
    intro a v ha
    rw [ha]
    rfl
  unfold describe
  rw [if_pos h.kind]
  simp only [read, hread h.minimum, hread h.maximum, hread h.places]

/-- A slider is packed with its limits as the texts in its description give them. -/
theorem outcome_packedSlider {n : Node} {value low high low' high' : Decimal} {places : ℤ}
    (h : n.IsSlider value low high places) {t u : String} {a b : ℚ}
    (hplaces : Text.digitCount places.natAbs ≤ integerDigitLimit)
    (ht : Slider.plain (.decimal low) = .ok t) (hlow : Slider.Settled a t low')
    (hu : Slider.plain (.decimal high) = .ok u) (hhigh : Slider.Settled b u high') :
    n.packedSlider.outcome.value =
      Slider.pack (.decimal value) (.decimal low') (.decimal high') places := by
  have hdescribe : n.describe = .ok (.str ("Rounding: " ++ (Rounding.read (n.read .rounding)).code
      ++ "\nAccuracy: " ++ Text.integerText places ++ "\nLower limit: " ++ t ++ "\nUpper limit: " ++ u)) := by
    have htext : (Value.int places).text? = .ok (Text.integerText places) :=
      Value.text?_of_hasText (by simpa [Value.hasText] using hplaces)
    rw [h.describe_eq]
    unfold Slider.describe
    rw [htext, ht, hu]
    rfl
  have hdescription := Slider.readDescription_describe (Rounding.read (n.read .rounding)) hplaces hlow hhigh
  have hne : ("Rounding: " ++ (Rounding.read (n.read .rounding)).code ++ "\nAccuracy: "
      ++ Text.integerText places ++ "\nLower limit: " ++ t ++ "\nUpper limit: " ++ u).isEmpty = false := by
    rw [Bool.eq_false_iff, Ne, String.isEmpty_iff]
    intro hempty
    have hlist := congrArg String.toList hempty
    simp [String.toList_append] at hlist
  generalize "Rounding: " ++ (Rounding.read (n.read .rounding)).code ++ "\nAccuracy: "
    ++ Text.integerText places ++ "\nLower limit: " ++ t ++ "\nUpper limit: " ++ u = text
    at hdescribe hdescription hne
  have htext : ((Value.str text).orElse (.str "")).text = text := by
    unfold Value.orElse
    rw [if_pos (by simp [Value.truthy, hne])]
    rfl
  unfold packedSlider
  rw [hdescribe]
  change (Slider.pack (n.read .value) (.decimal (Slider.readDescription _).value.lower)
    (.decimal (Slider.readDescription _).value.upper) (Slider.readDescription _).value.places) = _
  have hvalue : n.read .value = .decimal value := by
    change (n.attributes.get? .value).getD .null = _
    rw [h.value]
    rfl
  rw [htext, hdescription, hvalue]

/-- A slider whose value lies within its limits: the working precision holds these, and the value can
be written with the places of the slider. -/
structure Packable (n : Node) (value low high : Decimal) (places : ℤ) (text : String) : Prop where
  slider : n.IsSlider value low high places
  finite : value.isFinite = true ∧ low.isFinite = true ∧ high.isFinite = true
  held : Decimal.Held low.value ∧ Decimal.Held high.value
  range : low.value ≤ value.value ∧ value.value ≤ high.value
  digits : Text.digitCount places.natAbs ≤ integerDigitLimit
  padded : Slider.padded (.decimal value) places = .ok text

/-- The attributes that configuring a slider writes. -/
def sliderAttributes : List Attribute := [.minimum, .maximum, .decimals, .rounding, .value]

section

variable {p : Slider.Packed} {value low high : Decimal} {places : ℤ} {packed : String}

/-- A slider is configured from a packed text as what this is read as, and in nothing else. -/
theorem applySlider_repacked (h : Slider.Repacked p value low high places packed) {m : Node} (hm : m.kind = .slider) :
    ∃ m', m.applySlider packed = .ok m' ∧ m'.IsSlider p.value p.minimum p.maximum p.places ∧
      ∀ a ∉ sliderAttributes, m'.attributes.get? a = m.attributes.get? a := by
  unfold applySlider
  rw [h.read]
  refine ⟨_, rfl, ⟨hm, ?_, ?_, ?_, ?_⟩, fun a ha => ?_⟩
  · simp [put, Attributes.get?_put]
  · simp [put, Attributes.get?_put]
  · simp [put, Attributes.get?_put]
  · simp [put, Attributes.get?_put]
  · simp only [sliderAttributes, List.mem_cons, List.not_mem_nil, or_false, not_or] at ha
    simp [put, Attributes.get?_put, ha]

/-- A slider that shows what a packed text is read as is packed in this text. -/
theorem packedSlider_repacked (h : Slider.Repacked p value low high places packed) {m : Node}
    (hm : m.IsSlider p.value p.minimum p.maximum p.places) : m.packedSlider.outcome.value = .ok packed := by
  obtain ⟨low', high', hlow, hhigh⟩ := h.settled
  have hdigits : Text.digitCount p.places ≤ integerDigitLimit := by
    have hlt : p.places < 10 ^ 7 := by
      have hplaces := h.places
      have hscale : Decimal.minScale = -1000026 := rfl
      omega
    exact ((Nat.length_toDigits_le_iff (by decide) (by decide)).mpr hlt).trans (by decide)
  exact (outcome_packedSlider hm hdigits hlow.again hlow hhigh.again hhigh).trans h.text

end

/-- **A slider is packed in a text from which any slider is configured to one that is packed in the same
text**, whatever else happens to it. -/
theorem packedSlider_applySlider {n : Node} {value low high : Decimal} {places : ℤ} {text : String}
    (h : n.Packable value low high places text) :
    ∃ packed value' low' high' places', n.packedSlider.outcome.value = .ok packed ∧
      (∀ m : Node, m.kind = .slider → ∃ m', m.applySlider packed = .ok m' ∧
        m'.IsSlider value' low' high' places' ∧
        ∀ a ∉ sliderAttributes, m'.attributes.get? a = m.attributes.get? a) ∧
      ∀ m : Node, m.IsSlider value' low' high' places' → m.packedSlider.outcome.value = .ok packed := by
  obtain ⟨hv, hl, hh⟩ := h.finite
  obtain ⟨t, low', ht, hlow⟩ := Slider.plain_spec hl h.held.1
  obtain ⟨u, high', hu, hhigh⟩ := Slider.plain_spec hh h.held.2
  have hpack : Slider.pack (.decimal value) (.decimal low') (.decimal high') places =
      .ok (text ++ "<" ++ t ++ "," ++ u ++ ">") := by
    unfold Slider.pack
    rw [h.padded, hlow.again, hhigh.again]
    rfl
  obtain ⟨p, hp⟩ := Slider.exists_repacked hv hlow.finite hhigh.finite (hlow.value ▸ h.held.1.precise)
    (hhigh.value ▸ h.held.2.precise) (hlow.value ▸ h.range.1) (hhigh.value ▸ h.range.2) hpack
  exact ⟨_, p.value, p.minimum, p.maximum, p.places,
    (outcome_packedSlider h.slider h.digits ht hlow hu hhigh).trans hpack,
    fun m hm => applySlider_repacked hp hm, fun m hm => packedSlider_repacked hp hm⟩

end Node

end Patchbay
