import Patchbay.Proofs.Decimal.Value
import Patchbay.Proofs.Token.Number

/-!
# Plain texts of decimals read back

A decimal is written without an exponent, as a sign, digits, and at most one point.

* **`Numeral.parse?_pointed`** — digits with a point anywhere, or with zeros where the point would
  stand outside of them, are a numeral with just these digits.
* **`Decimal.parse?_plainText`** — what is read is the decimal itself, or the same number with its
  zeros written out; its sign is never lost, not even for a zero.
* `Decimal.IsPlainChar` — the characters that can stand in such a text, which has neither blanks
  nor separators.
-/

namespace Patchbay

/-! ## Numerals with a point -/

namespace Numeral

/-- A point among, before or behind digits leaves the digits as they are. -/
theorem parse?_pointed {cs ds : List Char} {whole : ℤ} {negative : Bool}
    (hsign : sign cs = (negative, Decimal.pointed ds whole)) (hds : ∀ c ∈ ds, Text.isDigit c)
    (hne : ds ≠ []) :
    ∃ n, parse? cs = some n ∧ n.negative = negative ∧ n.exponent = 0 ∧
      (whole < ds.length ∧ Text.natOfDigits n.digits = Text.natOfDigits ds ∧
          (n.fraction : ℤ) = ds.length - whole ∨
        ds.length ≤ whole ∧ n.fraction = 0 ∧
          Text.natOfDigits n.digits = Text.natOfDigits ds * 10 ^ (whole - ds.length).toNat) := by
  have hlength : 0 < ds.length := List.length_pos_iff.mpr hne
  have hzero : Text.natOfDigits ['0'] = 0 := rfl
  unfold Decimal.pointed at hsign
  split at hsign
  · -- Zeros stand between the point and the digits.
    next hwhole =>
    generalize hk : (-whole).toNat = k at hsign
    have hsign' : sign cs = (negative, ['0'] ++ '.' :: ((List.replicate k '0' ++ ds) ++ [])) := by
      rw [hsign]
      simp
    refine ⟨_, parse?_point hsign' (by simp; decide) (by simp)
      (isDigit_append (fun c => isDigit_zeros) hds) ends_nil exponentPart?_nil, rfl, rfl,
      Or.inl ⟨by omega, ?_, ?_⟩⟩
    · rw [Text.natOfDigits_append, Text.natOfDigits_append, Text.natOfDigits_zeros, hzero]
      simp
    · dsimp only
      rw [List.length_append, List.length_replicate]
      omega
  · next hwhole =>
    split at hsign
    · -- Zeros fill the places before the point, which is not written.
      next hlong =>
      generalize hk : whole.toNat - ds.length = k at hsign
      have hsign' : sign cs = (negative, (ds ++ List.replicate k '0') ++ []) := by
        rw [hsign, List.append_nil]
      refine ⟨_, parse?_whole hsign' (isDigit_append hds fun c => isDigit_zeros) (by simp [hne])
        ends_nil exponentPart?_nil, rfl, rfl, Or.inr ⟨hlong, rfl, ?_⟩⟩
      rw [natOfDigits_append_zeros]
      congr 2
      omega
    · -- The point stands among the digits.
      next hshort =>
      have hsign' : sign cs
          = (negative, ds.take whole.toNat ++ '.' :: (ds.drop whole.toNat ++ [])) := by
        rw [hsign, List.append_nil]
      have htake : ds.take whole.toNat ≠ [] := by
        rw [Ne, List.take_eq_nil_iff, not_or]
        exact ⟨by omega, hne⟩
      refine ⟨_, parse?_point hsign' (fun c hc => hds c (List.mem_of_mem_take hc)) htake
        (fun c hc => hds c (List.mem_of_mem_drop hc)) ends_nil exponentPart?_nil, rfl, rfl,
        Or.inl ⟨by omega, ?_, ?_⟩⟩
      · rw [List.take_append_drop]
      · dsimp only
        rw [List.length_drop]
        omega

end Numeral

namespace Decimal

/-! ## Characters -/

/-- A character of a plain text. -/
def IsPlainChar (c : Char) : Prop := Text.isAsciiDigit c ∨ c = '.' ∨ c = '-'

theorem IsPlainChar.isNumberChar {c : Char} (h : IsPlainChar c) : Double.IsNumberChar c := by
  rcases h with h | rfl | rfl
  · exact Or.inl h
  · exact Or.inr (by simp)
  · exact Or.inr (by simp)

/-- A character that is no digit, point or minus sign stands in no plain text. -/
theorem notMem_of_isPlainChar {cs : List Char} (h : ∀ c ∈ cs, IsPlainChar c) {sep : Char}
    (hsep : Text.isAsciiDigit sep = false ∧ sep ∉ ['.', 'e', '+', '-']) : sep ∉ cs :=
  Double.notMem_of_isNumberChar (fun c hc => (h c hc).isNumberChar) hsep

theorem isPlainChar_pointed {ds : List Char} (hds : ∀ c ∈ ds, Text.isAsciiDigit c) (whole : ℤ) :
    ∀ c ∈ pointed ds whole, IsPlainChar c := by
  have hzeros : ∀ k, ∀ c ∈ List.replicate k '0', IsPlainChar c := by
    intro k c hc
    rw [List.eq_of_mem_replicate hc]
    exact Or.inl (by decide)
  have hdigits : ∀ c ∈ ds, IsPlainChar c := fun c hc => Or.inl (hds c hc)
  have hpoint : IsPlainChar '.' := Or.inr (Or.inl rfl)
  unfold pointed
  split
  · exact List.forall_mem_cons.mpr ⟨Or.inl (by decide), List.forall_mem_cons.mpr ⟨hpoint,
      List.forall_mem_append.mpr ⟨hzeros _, hdigits⟩⟩⟩
  · split
    · exact List.forall_mem_append.mpr ⟨hdigits, hzeros _⟩
    · exact List.forall_mem_append.mpr ⟨fun c hc => hdigits c (List.mem_of_mem_take hc),
        List.forall_mem_cons.mpr ⟨hpoint, fun c hc => hdigits c (List.mem_of_mem_drop hc)⟩⟩

/-- Digits with a point begin with a digit. -/
theorem pointed_head {ds : List Char} (hds : ∀ c ∈ ds, Text.isAsciiDigit c) (hne : ds ≠ [])
    (whole : ℤ) : ∃ c rest, pointed ds whole = c :: rest ∧ Text.isAsciiDigit c := by
  obtain ⟨d, more, rfl⟩ := List.exists_cons_of_ne_nil hne
  have hd : Text.isAsciiDigit d := hds d (by simp)
  unfold pointed
  split
  · exact ⟨'0', _, rfl, by decide⟩
  · next hwhole =>
    split
    · exact ⟨d, _, rfl, hd⟩
    · obtain ⟨k, hk⟩ : ∃ k, whole.toNat = k + 1 := ⟨whole.toNat - 1, by omega⟩
      rw [hk, List.take_succ_cons]
      exact ⟨d, _, rfl, hd⟩

/-! ## Reading -/

theorem toLower_of_isAsciiDigit {c : Char} (h : Text.isAsciiDigit c) : c.toLower = c := by
  simp only [Text.isAsciiDigit, Bool.and_eq_true, decide_eq_true_eq] at h
  unfold Char.toLower
  rw [dif_neg]
  rintro ⟨hlow, -⟩
  have hnat : (65 : ℕ) ≤ c.toNat := hlow
  omega

/-- What begins with a digit, up to a sign, is no word. -/
theorem readSpecial?_of_digit {cs rest : List Char} {negative : Bool} {c : Char}
    (hsign : Numeral.sign cs = (negative, c :: rest)) (hc : Text.isAsciiDigit c) :
    readSpecial? cs = none := by
  have hne : ∀ letter : Char, Text.isAsciiDigit letter = false → c ≠ letter := by
    rintro letter hletter rfl
    rw [hletter] at hc
    cases hc
  have hi : c ≠ 'i' := hne 'i' (by decide)
  have hs : c ≠ 's' := hne 's' (by decide)
  have hn : c ≠ 'n' := hne 'n' (by decide)
  unfold readSpecial? isWord
  rw [hsign]
  dsimp only
  rw [List.map_cons, toLower_of_isAsciiDigit hc]
  simp [hi, hs, hn]

theorem toList_plainText (negative : Bool) (c : ℕ) (e : ℤ) :
    (finite negative c e).plainText.toList = signText negative ++
      pointed (Text.digitsOfNat c) (leading c (if c = 0 then min e 0 else e) + 1) := by
  unfold plainText
  rw [String.toList_ofList]

theorem isPlainChar_plainText (negative : Bool) (c : ℕ) (e : ℤ) :
    ∀ ch ∈ (finite negative c e).plainText.toList, IsPlainChar ch := by
  intro ch hch
  rw [toList_plainText] at hch
  rcases List.mem_append.mp hch with hch | hch
  · cases negative with
    | true => exact Or.inr (Or.inr (List.mem_singleton.mp hch))
    | false => cases hch
  · exact isPlainChar_pointed (fun c hc => Text.isAsciiDigit_of_mem_digitsOfNat hc) _ ch hch

/-- Plain characters are read as a numeral, if they are one. -/
theorem parse?_of_plain {cs : List Char} (hcs : ∀ c ∈ cs, IsPlainChar c) {c : Char}
    {rest : List Char} {negative : Bool} (hsign : Numeral.sign cs = (negative, c :: rest))
    (hc : Text.isAsciiDigit c) {n : Numeral} (hn : Numeral.parse? cs = some n)
    (hscale : minReadScale ≤ n.exponent - n.fraction)
    (hlead : leading (Text.natOfDigits n.digits) (n.exponent - n.fraction) ≤ maxReadExponent) :
    parse? cs = some (finite n.negative (Text.natOfDigits n.digits) (n.exponent - n.fraction)) := by
  have htrim : Text.trimChars cs = cs :=
    Text.trimBy_eq_self fun c hc => (hcs c hc).isNumberChar.isBlank
  have hfilter : cs.filter (· != '_') = cs := by
    refine List.filter_eq_self.mpr fun c hc => ?_
    rw [bne_iff_ne]
    rintro rfl
    exact notMem_of_isPlainChar hcs (by decide) hc
  unfold parse?
  dsimp only
  rw [htrim, hfilter, readSpecial?_of_digit hsign hc, hn]
  dsimp only
  rw [if_pos]
  simp only [Bool.and_eq_true, decide_eq_true_eq]
  exact ⟨hscale, hlead⟩

/-- Behind its sign a plain text begins with a digit. -/
theorem sign_plainText (negative : Bool) (c : ℕ) (e : ℤ) :
    ∃ d rest, Numeral.sign (finite negative c e).plainText.toList = (negative, d :: rest) ∧
      Text.isAsciiDigit d ∧ d :: rest =
        pointed (Text.digitsOfNat c) (leading c (if c = 0 then min e 0 else e) + 1) := by
  obtain ⟨d, rest, hhead, hd⟩ := pointed_head (fun _ hd => Text.isAsciiDigit_of_mem_digitsOfNat hd)
    (Text.digitsOfNat_ne_nil c) (leading c (if c = 0 then min e 0 else e) + 1)
  refine ⟨d, rest, ?_, hd, hhead.symm⟩
  rw [toList_plainText, hhead]
  cases negative with
  | true => rfl
  | false => exact Double.sign_signed hd rest false

/-- The numeral that a plain text is: its digits end behind the point, or its zeros are written out
up to where the point would stand. -/
theorem numeral_plainText (negative : Bool) (c : ℕ) (e : ℤ) {f : ℤ}
    (hf : (if c = 0 then min e 0 else e) = f) :
    ∃ n, Numeral.parse? (finite negative c e).plainText.toList = some n ∧ n.negative = negative ∧
      n.exponent = 0 ∧ (f < 0 ∧ Text.natOfDigits n.digits = c ∧ (n.fraction : ℤ) = -f ∨
        0 ≤ f ∧ Text.natOfDigits n.digits = c * 10 ^ f.toNat ∧ n.fraction = 0) := by
  obtain ⟨d, rest, hsign, -, hhead⟩ := sign_plainText negative c e
  rw [hhead, hf] at hsign
  obtain ⟨n, hn, hnegative, hexponent, hcases⟩ := Numeral.parse?_pointed hsign
    (fun d hd => Text.isDigit_of_ascii (Text.isAsciiDigit_of_mem_digitsOfNat hd))
    (Text.digitsOfNat_ne_nil c)
  rw [Text.natOfDigits_digitsOfNat] at hcases
  have hlead : leading c f + 1 = f + (Text.digitsOfNat c).length := by
    unfold leading Text.digitCount
    omega
  refine ⟨n, hn, hnegative, hexponent, hcases.imp ?_ ?_⟩
  · rintro ⟨hshort, hdigits, hfraction⟩
    exact ⟨by omega, hdigits, by omega⟩
  · rintro ⟨hlong, hfraction, hdigits⟩
    rw [hlead, add_sub_cancel_right] at hdigits
    exact ⟨by omega, hdigits, hfraction⟩

/-- Written-out zeros do not move the leading digit. -/
theorem leading_writtenOut {c : ℕ} (hc : c ≠ 0) {e : ℤ} (he : 0 ≤ e) :
    leading (c * 10 ^ e.toNat) 0 = leading c e := by
  refine leading_congr (by positivity) ?_
  rw [magnitude_shift]
  congr 1
  omega

/-- **A plain text is read back**: with a last digit after the point as the decimal itself, else as
the number with its zeros written out. -/
theorem parse?_plainText (negative : Bool) {c : ℕ} {e : ℤ} (hscale : minReadScale ≤ e)
    (hlead : leading c e ≤ maxReadExponent) :
    parse? (finite negative c e).plainText.toList =
      some (if e ≤ 0 then finite negative c e else finite negative (c * 10 ^ e.toNat) 0) := by
  obtain ⟨d, rest, hsign, hd, -⟩ := sign_plainText negative c e
  obtain ⟨n, hn, hnegative, hexponent, hcases⟩ := numeral_plainText negative c e rfl
  have hplain := parse?_of_plain (isPlainChar_plainText negative c e) hsign hd hn
  rw [hnegative, hexponent] at hplain
  rcases hcases with ⟨hbehind, hdigits, hfraction⟩ | ⟨hfull, hdigits, hfraction⟩
  · have he : (0 : ℤ) - n.fraction = e ∧ e ≤ 0 := by
      split at hfraction <;> omega
    rw [hdigits, he.1] at hplain
    rw [hplain hscale hlead, if_pos he.2]
  rw [hdigits, hfraction, Nat.cast_zero, sub_zero] at hplain
  by_cases hc : c = 0
  · -- of a zero no further zeros are written
    subst hc
    rw [if_pos rfl] at hfull
    rw [Nat.zero_mul] at hplain
    rw [hplain (by decide) (by decide), Nat.zero_mul]
    split
    · rw [show e = 0 by omega]
    · rfl
  · rw [if_neg hc] at hfull hplain
    rw [hplain (by decide) ((leading_writtenOut hc hfull).le.trans hlead)]
    split
    · rw [show e = 0 by omega, Int.toNat_zero, pow_zero, mul_one]
    · rfl

end Decimal

end Patchbay
