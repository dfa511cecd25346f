import Patchbay.Proofs.Slider.RoundTrip

/-!
# Packed values are packed again

What is packed of a slider is read as the value rounded to the places of the slider and moved into the limits, and
that is packed in the same text.  A text that somebody else wrote may tell more than its places hold.

* **`Decimal.scale_of_parse?`** — a number that is written without an exponent has no more places than characters
  after its point.  So it is its own rounding.
* `Slider.ordered_unpack` — whatever is read lies within its limits.
* `Slider.WritesPlainly` — the value is written without an exponent and within the limits.
* **`Slider.unpack_repacked`** — any text that can be read, packed again
* **`Node.packedSlider_reproduced`** — a live slider, captured and applied to any other slider

## What is cut

Places are counted in the text of the value, before it is moved into its limits.  So an exponent, or a limit with
more places, brings digits that are rounded away: `Slider.unpack_repacked_cut`.

The precision holds no digit after the last place of the smallest decimal.  A limit with digits there is written
without them, and a slider with more places is written with as many as there are: `Node.packedSlider_cut`.
-/

namespace Patchbay

/-! ## Numbers without an exponent -/

namespace Slider

theorem writtenPlaces_append {before : List Char} (h : '.' ∉ before) (after : List Char) :
    writtenPlaces (before ++ '.' :: after) = after.length := by
  unfold writtenPlaces
  rw [Text.cut_append h]

/-- Characters that are passed over count nevertheless. -/
theorem writtenPlaces_filter_le {p : Char → Bool} (hpoint : p '.' = true) (cs : List Char) :
    writtenPlaces (cs.filter p) ≤ writtenPlaces cs := by
  obtain ⟨hbefore, hcs⟩ := Text.cut_spec '.' cs
  generalize Text.cut '.' cs = parts at hbefore hcs
  obtain ⟨before, after⟩ := parts
  have hfiltered : '.' ∉ before.filter p := fun hmem => hbefore (List.mem_of_mem_filter hmem)
  cases after with
  | none =>
      have hnone : Text.cut '.' (cs.filter p) = (cs.filter p, none) :=
        Text.cut_of_notMem (by simpa [hcs] using hfiltered)
      unfold writtenPlaces
      rw [hnone]
      exact Nat.zero_le _
  | some after =>
      have hjoined : cs = before ++ '.' :: after := hcs
      rw [hjoined, List.filter_append, List.filter_cons_of_pos hpoint, writtenPlaces_append hfiltered,
        writtenPlaces_append hbefore]
      exact List.length_filter_le p after

end Slider

namespace Numeral

theorem sign_spec (cs : List Char) : ∃ mark, cs = mark ++ (sign cs).2 ∧ '.' ∉ mark := by
  unfold sign
  split
  · exact ⟨['-'], rfl, by decide⟩
  · exact ⟨['+'], rfl, by decide⟩
  · exact ⟨[], rfl, by simp⟩

theorem digitRun_spec (cs : List Char) : cs = (digitRun cs).1 ++ (digitRun cs).2 ∧ '.' ∉ (digitRun cs).1 := by
  unfold digitRun
  rw [List.span_eq_takeWhile_dropWhile]
  refine ⟨List.takeWhile_append_dropWhile.symm, fun hmem => ?_⟩
  exact absurd (List.mem_takeWhile_imp hmem) (by decide)

/-- An exponent begins with its letter. -/
theorem exponentPart?_plain {cs : List Char} {i : ℤ} (h : exponentPart? cs = some i)
    (hplain : 'e' ∉ cs ∧ 'E' ∉ cs) : cs = [] ∧ i = 0 := by
  cases cs with
  | nil => exact ⟨rfl, (Option.some.inj h).symm⟩
  | cons c rest =>
      have hc : c ≠ 'e' ∧ c ≠ 'E' :=
        ⟨fun heq => hplain.1 (heq ▸ List.mem_cons_self), fun heq => hplain.2 (heq ▸ List.mem_cons_self)⟩
      simp [exponentPart?, hc] at h

/-- A numeral without an exponent has no more places than characters after its point. -/
theorem scale_of_parse? {cs : List Char} {n : Numeral} (h : parse? cs = some n) (hplain : 'e' ∉ cs ∧ 'E' ∉ cs) :
    n.exponent = 0 ∧ n.fraction ≤ Slider.writtenPlaces cs := by
  -- the text is a sign, digits, and what follows these
  obtain ⟨mark, hmark, hmark'⟩ := sign_spec cs
  unfold parse? at h
  generalize sign cs = signed at h hmark
  obtain ⟨negative, signless⟩ := signed
  obtain ⟨hwhole, hwhole'⟩ := digitRun_spec signless
  dsimp only at h hmark
  generalize digitRun signless = run at h hwhole hwhole'
  obtain ⟨whole, rest⟩ := run
  dsimp only at h hwhole hwhole'
  have hcs : cs = (mark ++ whole) ++ rest := by rw [hmark, hwhole, List.append_assoc]
  have hbefore : '.' ∉ mark ++ whole := by simp [hmark', hwhole']
  have htail : ∀ tail : List Char, tail ⊆ cs → 'e' ∉ tail ∧ 'E' ∉ tail :=
    fun tail hsub => ⟨fun hmem => hplain.1 (hsub hmem), fun hmem => hplain.2 (hsub hmem)⟩
  split at h
  · next after =>
    obtain ⟨hafter, -⟩ := digitRun_spec after
    split at h
    · cases h
    · obtain ⟨i, hi, hn⟩ := Option.map_eq_some_iff.mp h
      have hsub : (digitRun after).2 ⊆ cs := by
        intro c hc
        rw [hcs, hafter]
        simp [hc]
      obtain ⟨-, rfl⟩ := exponentPart?_plain hi (htail _ hsub)
      rw [← hn, hcs, Slider.writtenPlaces_append hbefore]
      refine ⟨rfl, ?_⟩
      conv_rhs => rw [hafter, List.length_append]
      exact Nat.le_add_right _ _
  · split at h
    · cases h
    · obtain ⟨i, hi, hn⟩ := Option.map_eq_some_iff.mp h
      obtain ⟨-, rfl⟩ := exponentPart?_plain hi (htail rest (by rw [hcs]; simp))
      rw [← hn]
      exact ⟨rfl, Nat.zero_le _⟩

end Numeral

namespace Decimal

/-- The words stand for no finite number. -/
theorem isFinite_readSpecial? {cs : List Char} {d : Decimal} (h : readSpecial? cs = some d) : d.isFinite = false := by
  unfold readSpecial? at h
  dsimp only at h
  split at h
  · cases h
    rfl
  · split at h
    · split at h
      · cases h
        rfl
      · cases h
    · cases h

/-- **A number that is written without an exponent** has no more places than characters after its point. -/
theorem scale_of_parse? {cs : List Char} {negative : Bool} {c : ℕ} {e : ℤ}
    (h : parse? cs = some (finite negative c e)) (hplain : 'e' ∉ cs ∧ 'E' ∉ cs) (htrimmed : Text.Trimmed cs) :
    -(Slider.writtenPlaces cs : ℤ) ≤ e := by
  unfold parse? at h
  rw [Text.trimChars_eq_self htrimmed] at h
  dsimp only at h
  have hbody : 'e' ∉ cs.filter (· != '_') ∧ 'E' ∉ cs.filter (· != '_') :=
    ⟨fun hmem => hplain.1 (List.mem_of_mem_filter hmem), fun hmem => hplain.2 (List.mem_of_mem_filter hmem)⟩
  split at h
  · next d hspecial =>
    have hd := isFinite_readSpecial? hspecial
    rw [Option.some.inj h] at hd
    cases hd
  · split at h
    · cases h
    · next n hn =>
      split at h
      · injection h with h
        injection h with _ _ he
        obtain ⟨hexponent, hfraction⟩ := Numeral.scale_of_parse? hn hbody
        have hle := Slider.writtenPlaces_filter_le (p := (· != '_')) (by decide) cs
        omega
      · cases h

/-- A number without digits after some places is a multiple of the last of these. -/
theorem exists_multiple {negative : Bool} {c places : ℕ} {e : ℤ} (h : -(places : ℤ) ≤ e) :
    ∃ k : ℤ, (finite negative c e).value = k * 10 ^ (-places : ℤ) := by
  obtain ⟨j, hj⟩ := Int.eq_ofNat_of_zero_le (by omega : 0 ≤ e + places)
  have hmagnitude : magnitude c e = ((c * 10 ^ j : ℕ) : ℤ) * 10 ^ (-places : ℤ) := by
    have hexp : e = j + -places := by omega
    rw [hexp, magnitude, zpow_add₀ (by norm_num), zpow_natCast, ← mul_assoc]
    push_cast
    rfl
  cases negative with
  | false => exact ⟨_, hmagnitude⟩
  | true =>
      refine ⟨-((c * 10 ^ j : ℕ) : ℤ), ?_⟩
      rw [value_negative, hmagnitude, Int.cast_neg, neg_mul]

theorem value_zero_ne {c : ℕ} {e : ℤ} (hc : c ≠ 0) : (finite false 0 0).value ≠ (finite false c e).value := by
  rw [value_positive, magnitude_zero]
  exact (magnitude_pos hc e).ne

end Decimal

/-! ## Packed texts -/

namespace Slider

open Decimal

/-- What a packed text is read as: its limits in order, and its value moved into them. -/
theorem unpack_spec {text : String} {p : Packed} (h : unpack text = .ok p) :
    ∃ value limits v, cutPacked? (Text.trimChars text.toList) = some (value, limits) ∧
      parse? (Text.trimChars value) = some v ∧ v.isFinite = true ∧ p.minimum.isFinite = true ∧
      p.maximum.isFinite = true ∧ p.minimum.value ≤ p.maximum.value ∧
      p.value = (v.larger p.minimum).smaller p.maximum ∧ p.places = writtenPlaces (Text.trimChars value) := by
  unfold unpack at h
  split at h
  · cases h
  · next value low high hcut =>
    dsimp only at h
    split at h
    · next v a b hv ha hb =>
      split at h
      · next hfinite =>
        simp only [Bool.and_eq_true] at hfinite
        obtain ⟨⟨hv', ha'⟩, hb'⟩ := hfinite
        by_cases hlt : b.lt a = true
        · rw [if_pos hlt] at h
          cases h
          rw [lt_iff_of_isFinite hb' ha'] at hlt
          exact ⟨value, (low, high), v, hcut, hv, hv', hb', ha', hlt.le, rfl, rfl⟩
        · rw [if_neg hlt] at h
          cases h
          rw [lt_iff_of_isFinite hb' ha', not_lt] at hlt
          exact ⟨value, (low, high), v, hcut, hv, hv', ha', hb', hlt, rfl, rfl⟩
      · cases h
    · cases h

/-- Whatever is read lies within its limits. -/
theorem ordered_unpack {text : String} {p : Packed} (h : unpack text = .ok p) : p.Ordered := by
  obtain ⟨value, limits, v, -, -, hv, hmin, hmax, hle, hvalue, -⟩ := unpack_spec h
  obtain ⟨hlarger, heq⟩ := larger_spec hv hmin
  obtain ⟨hsmaller, heq'⟩ := smaller_spec hlarger hmax
  refine ⟨hvalue ▸ hsmaller, hmin, hmax, ?_, ?_⟩
  · rw [hvalue, heq', heq]
    exact le_min (le_max_right _ _) hle
  · rw [hvalue, heq']
    exact min_le_right _ _

/-! ### The last places -/

/-- Zero is written with any places, but with no more than those of the smallest decimal. -/
theorem padded_zero (negative : Bool) (e : ℤ) {places : ℤ} (h : places.toNat ≤ maxShift) :
    padded (.decimal (finite negative 0 e)) places =
      .ok (finite negative 0 (max (-(places.toNat : ℤ)) minScale)).plainText := by
  unfold padded quantize?
  dsimp only [toDecimal]
  rw [if_neg (by omega), if_neg (by omega)]
  rfl

theorem settled_one : Settled 1 "1" (finite false 1 0) where
  chars := by
    intro c hc
    rw [List.mem_singleton.mp hc]
    exact Or.inl (by decide)
  nonempty := by decide
  read := by decide
  finite := rfl
  value := by
    rw [value_positive, magnitude]
    norm_num
  again := by decide

/-- One place more than those of the smallest decimal is written as these are. -/
theorem exists_fewer_places (e : ℤ) :
    ∃ t p, Packed.text ⟨finite false 0 e, finite false 0 0, finite false 1 0, 1000027⟩ = .ok t ∧
      unpack t = .ok p ∧ p.places = 1000026 := by
  have hpack : ∃ t, Packed.text ⟨finite false 0 e, finite false 0 0, finite false 1 0, 1000027⟩ = .ok t := by
    unfold Packed.text pack
    dsimp only
    rw [padded_zero false e (by decide), plain_zero, settled_one.again]
    exact ⟨_, rfl⟩
  obtain ⟨t, ht⟩ := hpack
  have hnull : ∀ f, (finite false 0 f).value = 0 := fun f => by rw [value_positive, magnitude_zero]
  have hone : (finite false 0 e).value ≤ (finite false 1 0).value := (hnull e).le.trans (magnitude_nonneg 1 0)
  obtain ⟨p, hp⟩ := exists_repacked rfl rfl rfl (precise_digits (by decide) (by decide))
    (precise_digits (by decide) (by decide)) ((hnull 0).trans (hnull e).symm).le hone ht
  refine ⟨t, p, ht, hp.read, ?_⟩
  have hplaces : (p.places : ℤ) = min (max 1000027 0) (-minScale) := hp.places
  have hscale : minScale = -1000026 := rfl
  omega

/-! ### Packing what was read -/

/-- A text writes the value that it is read as: without an exponent, and within the limits. -/
def WritesPlainly (text : String) (p : Packed) : Prop :=
  ∀ value limits, cutPacked? (Text.trimChars text.toList) = some (value, limits) →
    ('e' ∉ value ∧ 'E' ∉ value) ∧
    ∀ v, parse? (Text.trimChars value) = some v → p.minimum.value ≤ v.value ∧ v.value ≤ p.maximum.value

/-- A value that is written plainly has no more places than are read. -/
theorem exists_multiple_of_writesPlainly {text : String} {p : Packed} (h : unpack text = .ok p)
    (hplain : WritesPlainly text p) : ∃ k : ℤ, p.value.value = k * 10 ^ (-p.places : ℤ) := by
  obtain ⟨value, limits, v, hcut, hv, hfinite, hmin, hmax, -, hvalue, hplaces⟩ := unpack_spec h
  obtain ⟨⟨he, hE⟩, hrange⟩ := hplain value limits hcut
  obtain ⟨hlow, hhigh⟩ := hrange v hv
  obtain ⟨hlarger, heq⟩ := larger_spec hfinite hmin
  obtain ⟨-, heq'⟩ := smaller_spec hlarger hmax
  have hsame : p.value.value = v.value := by
    rw [hvalue, heq', heq, max_eq_left hlow, min_eq_left hhigh]
  obtain ⟨negative, c, e, rfl⟩ := eq_finite hfinite
  have hscale := Decimal.scale_of_parse? hv
    ⟨fun hmem => he ((Text.trimChars_isInfix value).subset hmem),
      fun hmem => hE ((Text.trimChars_isInfix value).subset hmem)⟩ (Text.trimmed_trimChars value)
  rw [hsame, hplaces]
  exact exists_multiple hscale

/-- **A text that can be read, packed again**, keeps its limits, its places, and its value as far as these places
show it: the value is rounded to them, and moved into the limits.  So it is the same if it has no more places;
which is so if the text writes it without an exponent and within the limits.  What is packed is packed again in
the same text. -/
theorem unpack_repacked {text t : String} {p : Packed} (h : unpack text = .ok p) (hmin : Precise p.minimum.value)
    (hmax : Precise p.maximum.value) (ht : p.text = .ok t) :
    ∃ p', unpack t = .ok p' ∧ p'.text = .ok t ∧
      p'.minimum.value = p.minimum.value ∧ p'.maximum.value = p.maximum.value ∧
      (p'.places : ℤ) = min (p.places : ℤ) (-minScale) ∧
      p'.value.value = min (max (rounded p'.places p.value.value) p.minimum.value) p.maximum.value ∧
      ((∃ k : ℤ, p.value.value = k * 10 ^ (-p'.places : ℤ)) → p'.value.value = p.value.value) ∧
      (WritesPlainly text p → (p.places : ℤ) ≤ -minScale → p'.value.value = p.value.value) := by
  have hordered := ordered_unpack h
  obtain ⟨p', hp'⟩ := exists_repacked hordered.value hordered.minimum hordered.maximum hmin hmax hordered.lower
    hordered.upper ht
  have hplaces : (p'.places : ℤ) = min (p.places : ℤ) (-minScale) := by
    rw [hp'.places, max_eq_left (Int.natCast_nonneg _)]
  have hmultiple : (∃ k : ℤ, p.value.value = k * 10 ^ (-p'.places : ℤ)) → p'.value.value = p.value.value := by
    rintro ⟨k, hk⟩
    rw [hp'.value, rounded_eq_self hk, max_eq_left hordered.lower, min_eq_left hordered.upper]
  refine ⟨p', hp'.read, hp'.text, hp'.minimum, hp'.maximum, hplaces, hp'.value, hmultiple, fun hplain hle => ?_⟩
  rw [min_eq_left hle] at hplaces
  refine hmultiple ?_
  rw [hplaces]
  exact exists_multiple_of_writesPlainly h hplain

/-- A value that is written plainly is kept; one that is moved to a limit with more places is rounded again. -/
theorem unpack_repacked_plain :
    (∃ p p', unpack "05.00<1e1,0>" = .ok p ∧ unpack "5.00<0,10>" = .ok p' ∧ p'.value.value = p.value.value ∧
      p'.minimum.value = p.minimum.value ∧ p'.maximum.value = p.maximum.value ∧ (p'.places : ℤ) = p.places) ∧
    ∃ p', unpack "2.5<0,2.54>" = .ok p' ∧ p'.text = .ok "2.5<0,2.54>" ∧ p'.maximum.value = magnitude 254 (-2) := by
  constructor
  · have hread : unpack "05.00<1e1,0>" =
        .ok ⟨finite false 500 (-2), finite false 0 0, finite false 1 1, 2⟩ := by decide +kernel
    have hcut : cutPacked? (Text.trimChars "05.00<1e1,0>".toList) =
        some ("05.00".toList, "1e1".toList, "0".toList) := by decide +kernel
    have hparse : parse? (Text.trimChars "05.00".toList) = some (finite false 500 (-2)) := by decide +kernel
    have hplain : WritesPlainly "05.00<1e1,0>" ⟨finite false 500 (-2), finite false 0 0, finite false 1 1, 2⟩ := by
      intro value limits h
      obtain ⟨rfl, -⟩ := Prod.mk.inj (Option.some.inj (hcut.symm.trans h))
      refine ⟨by decide, fun v hv => ?_⟩
      obtain rfl := Option.some.inj (hparse.symm.trans hv)
      simp only [value_positive, magnitude]
      norm_num
    obtain ⟨p', hp', -, hmin, hmax, hplaces, -, -, hvalue⟩ := unpack_repacked hread
      (precise_digits (by decide) (by decide)) (precise_digits (by decide) (by decide))
      (show _ = Except.ok "5.00<0,10>" by decide +kernel)
    exact ⟨_, p', hread, hp', hvalue hplain (by decide), hmin, hmax, hplaces⟩
  · have hread : unpack "5.0<0,2.54>" =
        .ok ⟨finite false 254 (-2), finite false 0 0, finite false 254 (-2), 1⟩ := by decide +kernel
    obtain ⟨p', hp', htext, -, hmax, -⟩ := unpack_repacked hread
      (precise_digits (by decide) (by decide)) (precise_digits (by decide) (by decide))
      (show _ = Except.ok "2.5<0,2.54>" by decide +kernel)
    exact ⟨p', hp', htext, hmax⟩

/-- What does not come back: digits that an exponent or a limit brings in, digits of a limit after the last place
of the smallest decimal, and places beyond that. -/
theorem unpack_repacked_cut :
    (∃ p t p', unpack "1e-3<0,10>" = .ok p ∧ p.text = .ok t ∧ unpack t = .ok p' ∧
      p'.value.value ≠ p.value.value) ∧
    (∃ p t p', unpack "5<0,0.26>" = .ok p ∧ p.text = .ok t ∧ unpack t = .ok p' ∧
      p'.value.value ≠ p.value.value) ∧
    (∃ p t p', unpack "1<1E-1000027,2>" = .ok p ∧ p.text = .ok t ∧ unpack t = .ok p' ∧
      p'.minimum.value ≠ p.minimum.value) ∧
    ∃ p t p', unpack ((finite false 0 (-1000027)).plainText ++ "<" ++ "0" ++ "," ++ "1" ++ ">") = .ok p ∧
      p.text = .ok t ∧ unpack t = .ok p' ∧ p'.places ≠ p.places := by
  refine ⟨?_, ?_, ?_, ?_⟩
  · exact ⟨⟨finite false 1 (-3), finite false 0 0, finite false 10 0, 0⟩, "0<0,10>",
      ⟨finite false 0 0, finite false 0 0, finite false 10 0, 0⟩, by decide +kernel, by decide +kernel,
      by decide +kernel, value_zero_ne (by decide)⟩
  · exact ⟨⟨finite false 26 (-2), finite false 0 0, finite false 26 (-2), 0⟩, "0<0,0.26>",
      ⟨finite false 0 0, finite false 0 0, finite false 26 (-2), 0⟩, by decide +kernel, by decide +kernel,
      by decide +kernel, value_zero_ne (by decide)⟩
  · exact ⟨⟨finite false 1 0, finite false 1 (-1000027), finite false 2 0, 0⟩, "1<0,2>",
      ⟨finite false 1 0, finite false 0 0, finite false 2 0, 0⟩, by decide +kernel, by decide +kernel,
      by decide +kernel, value_zero_ne (by decide)⟩
  · have hread : parse? (finite false 0 (-1000027)).plainText.toList = some (finite false 0 (-1000027)) :=
      parse?_plainText false (by decide) (by decide)
    have hne : (finite false 0 (-1000027)).plainText.toList ≠ [] := by
      intro hempty
      rw [hempty] at hread
      revert hread
      decide +kernel
    have hp := unpack_pack (isPlainChar_plainText _ _ _) hne hread rfl (settled_zero false 0) settled_one
      (by rw [value_positive, magnitude_zero]; exact zero_le_one)
    rw [writtenPlaces_plainText false 0 (by decide)] at hp
    obtain ⟨t, p', ht, hp', hplaces⟩ := exists_fewer_places (-1000027)
    exact ⟨_, t, p', hp, ht, hp', hplaces ▸ by decide⟩

end Slider

/-! ## Live sliders -/

namespace Node

open Decimal

/-- A slider without anything else. -/
def slider (value low high : Decimal) (places : ℤ) : Node :=
  { (default : Node) with
    kind := .slider
    attributes := [(.value, .decimal value), (.minimum, .decimal low), (.maximum, .decimal high),
      (.decimals, .int places), (.rounding, .rounding .float)] }

theorem isSlider_slider (value low high : Decimal) (places : ℤ) :
    (slider value low high places).IsSlider value low high places :=
  ⟨rfl, rfl, rfl, rfl, rfl⟩

/-- A slider that is packed has a description. -/
theorem IsSlider.exists_of_packed {n : Node} {value low high : Decimal} {places : ℤ} {text : String}
    (h : n.IsSlider value low high places) (hpacked : n.packedSlider.outcome.value = .ok text) :
    Text.digitCount places.natAbs ≤ integerDigitLimit ∧ (∃ t, Slider.plain (.decimal low) = .ok t) ∧
      ∃ u, Slider.plain (.decimal high) = .ok u := by
  cases hdescribe : n.describe with
  | error fault =>
      unfold packedSlider at hpacked
      rw [hdescribe] at hpacked
      cases hpacked
  | ok v =>
      rw [h.describe_eq] at hdescribe
      obtain ⟨s, hs, -⟩ := exists_of_map_eq_ok hdescribe
      obtain ⟨accuracy, haccuracy, hs⟩ := exists_of_bind_eq_ok hs
      obtain ⟨t, ht, hs⟩ := exists_of_bind_eq_ok hs
      obtain ⟨u, hu, -⟩ := exists_of_bind_eq_ok hs
      refine ⟨?_, ⟨t, ht⟩, u, hu⟩
      by_contra hlong
      have hnone : (Value.int places).text? = .error .unreadable := if_neg (by simpa [Value.hasText] using hlong)
      rw [hnone] at haccuracy
      cases haccuracy

/-- **A slider that can be captured reproduces itself.**  Its text is read with the same limits and with its
places, and the value as these places show it, which lies within the limits even where rounding leaves them.
What is read is packed in the same text, and so is any slider that is configured from it. -/
theorem packedSlider_reproduced {n : Node} {value low high : Decimal} {places : ℤ} {text : String}
    (h : n.IsSlider value low high places)
    (hfinite : value.isFinite = true ∧ low.isFinite = true ∧ high.isFinite = true)
    (hrange : low.value ≤ value.value ∧ value.value ≤ high.value)
    (hprecise : Precise low.value ∧ Precise high.value)
    (hpacked : n.packedSlider.outcome.value = .ok text) :
    ∃ p : Slider.Packed, Slider.unpack text = .ok p ∧ p.Ordered ∧
      p.minimum.value = low.value ∧ p.maximum.value = high.value ∧
      (p.places : ℤ) = min (max places 0) (-minScale) ∧
      p.value.value = min (max (rounded p.places value.value) low.value) high.value ∧
      p.text = .ok text ∧
      ∀ m : Node, m.kind = .slider →
        ∃ m', m.applySlider text = .ok m' ∧ m'.packedSlider.outcome.value = .ok text := by
  obtain ⟨hv, hl, hh⟩ := hfinite
  obtain ⟨hdigits, ⟨t, ht⟩, u, hu⟩ := h.exists_of_packed hpacked
  obtain ⟨t', low', ht', hlow⟩ := Slider.plain_spec hl (Slider.held_of_plain hl hprecise.1 ht)
  obtain ⟨u', high', hu', hhigh⟩ := Slider.plain_spec hh (Slider.held_of_plain hh hprecise.2 hu)
  have hpack : Slider.pack (.decimal value) (.decimal low') (.decimal high') places = .ok text :=
    (outcome_packedSlider h hdigits ht' hlow hu' hhigh).symm.trans hpacked
  obtain ⟨p, hp⟩ := Slider.exists_repacked hv hlow.finite hhigh.finite (hlow.value ▸ hprecise.1)
    (hhigh.value ▸ hprecise.2) (hlow.value ▸ hrange.1) (hhigh.value ▸ hrange.2) hpack
  refine ⟨p, hp.read, hp.ordered, hp.minimum.trans hlow.value, hp.maximum.trans hhigh.value, hp.places, ?_,
    hp.text, fun m hm => ?_⟩
  · rw [hp.value, hlow.value, hhigh.value]
  · obtain ⟨m', hm', hslider, -⟩ := applySlider_repacked hp hm
    exact ⟨m', hm', packedSlider_repacked hp hslider⟩

/-- The value of this slider is rounded to more than its maximum. -/
theorem packedSlider_reproduced_beyond :
    (slider (finite false 6 (-1)) (finite false 0 0) (finite false 6 (-1)) 0).packedSlider.outcome.value =
      .ok "1<0,0.6>" ∧
    (∃ p, Slider.unpack "1<0,0.6>" = .ok p ∧ p.Ordered ∧ p.text = .ok "1<0,0.6>") ∧
    ∃ m, (slider (finite false 3 0) (finite false 1 0) (finite false 5 0) 2).applySlider "1<0,0.6>" = .ok m ∧
      m.packedSlider.outcome.value = .ok "1<0,0.6>" := by
  have hpacked : (slider (finite false 6 (-1)) (finite false 0 0) (finite false 6 (-1)) 0).packedSlider.outcome.value =
      .ok "1<0,0.6>" := by decide +kernel
  have hlow : (finite false 0 0).value ≤ (finite false 6 (-1)).value := by
    rw [value_positive, magnitude_zero]
    exact magnitude_nonneg 6 (-1)
  have hslider := isSlider_slider (finite false 6 (-1)) (finite false 0 0) (finite false 6 (-1)) 0
  obtain ⟨p, hp, hordered, -, -, -, -, htext, hagain⟩ := packedSlider_reproduced hslider ⟨rfl, rfl, rfl⟩
    ⟨hlow, le_rfl⟩ ⟨precise_digits (by decide) (by decide), precise_digits (by decide) (by decide)⟩ hpacked
  exact ⟨hpacked, ⟨p, hp, hordered, htext⟩, hagain _ rfl⟩

/-- What does not come back: digits of a limit after the last place of the smallest decimal, and places beyond
that. -/
theorem packedSlider_cut :
    ((slider (finite false 1 0) (finite false 1 (-1000027)) (finite false 2 0) 0).packedSlider.outcome.value =
        .ok "1<0,2>" ∧
      ∃ p, Slider.unpack "1<0,2>" = .ok p ∧ p.minimum.value ≠ (finite false 1 (-1000027)).value) ∧
    ∃ text p, (slider (finite false 0 0) (finite false 0 0) (finite false 1 0) 1000027).packedSlider.outcome.value =
        .ok text ∧
      Slider.unpack text = .ok p ∧ (p.places : ℤ) ≠ max 1000027 0 := by
  constructor
  · exact ⟨by decide +kernel, ⟨finite false 1 0, finite false 0 0, finite false 2 0, 0⟩, by decide +kernel,
      value_zero_ne (by decide)⟩
  · have hpacked := outcome_packedSlider
      (isSlider_slider (finite false 0 0) (finite false 0 0) (finite false 1 0) 1000027) (by decide)
      (Slider.plain_zero false 0) (Slider.settled_zero false 0) Slider.settled_one.again Slider.settled_one
    obtain ⟨t, p, ht, hp, hplaces⟩ := Slider.exists_fewer_places 0
    exact ⟨t, p, hpacked.trans ht, hp, by rw [hplaces]; decide⟩

end Node

end Patchbay
