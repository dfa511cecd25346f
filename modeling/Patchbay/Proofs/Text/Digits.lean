import Patchbay.Text.Digit
import Mathlib.Data.List.Induction
import Mathlib.Tactic.Ring

/-!
# Written numbers and their digits

Natural numbers are written in the digits `0` to `9` and read in the digits of every script.  What
is needed of the two directions is collected here.

* **`natOfDigits_digitsOfNat`** — reading gives back the number that was written.
* **`natOfDigits_append`** — the value of a longer run, from which shifting by zeros and leaving
  zeros out at the front follow.
* **`pow_digitCount_le`, `lt_pow_digitCount`** — how many digits there are, as bounds by powers of
  ten.
-/

namespace Patchbay.Text

/-! ## Single digits -/

theorem digitValue?_of_ascii {c : Char} (h : isAsciiDigit c) :
    digitValue? c = some (c.toNat - 48) := by
  simp only [isAsciiDigit, Bool.and_eq_true, decide_eq_true_eq] at h
  have hlt : c.toNat < 128 := by omega
  simp [digitValue?, hlt, h]

theorem isDigit_of_ascii {c : Char} (h : isAsciiDigit c) : isDigit c := by
  rw [isDigit, digitValue?_of_ascii h]
  rfl

theorem isDigitLike_of_isDigit {c : Char} (h : isDigit c = true) : isDigitLike c = true := by
  rw [isDigitLike, h, Bool.true_or]

theorem isAsciiDigit_of_mem_digitsOfNat {n : ℕ} {c : Char} (h : c ∈ digitsOfNat n) :
    isAsciiDigit c := by
  have hdigit : c.isDigit := Nat.isDigit_of_mem_toDigits (by decide) (by decide) h
  simp only [Char.isDigit, ge_iff_le, Bool.and_eq_true, decide_eq_true_eq] at hdigit
  have hlow : (48 : UInt32).toNat ≤ c.val.toNat := hdigit.1
  have hhigh : c.val.toNat ≤ (57 : UInt32).toNat := hdigit.2
  simp only [isAsciiDigit, Bool.and_eq_true, decide_eq_true_eq]
  exact ⟨hlow, hhigh⟩

theorem isDigit_of_mem_digitsOfNat {n : ℕ} {c : Char} (h : c ∈ digitsOfNat n) : isDigit c :=
  isDigit_of_ascii (isAsciiDigit_of_mem_digitsOfNat h)

theorem digitsOfNat_ne_nil (n : ℕ) : digitsOfNat n ≠ [] := Nat.toDigits_ne_nil

/-! ## Values of runs -/

theorem natOfDigits_append (front back : List Char) :
    natOfDigits (front ++ back) = natOfDigits front * 10 ^ back.length + natOfDigits back := by
  induction back using List.reverseRecOn with
  | nil => simp [natOfDigits]
  | append_singleton back c ih =>
      rw [← List.append_assoc, natOfDigits_append_singleton, natOfDigits_append_singleton, ih,
        List.length_append, List.length_singleton, pow_succ]
      ring

theorem digitValue?_le {c : Char} {d : ℕ} (h : digitValue? c = some d) : d ≤ 9 := by
  unfold digitValue? at h
  dsimp only at h
  split at h
  · split at h
    · next hrange =>
      cases h
      simp only [Bool.and_eq_true, decide_eq_true_eq] at hrange
      omega
    · cases h
  · obtain ⟨first, hfirst, hd⟩ := Option.map_eq_some_iff.mp h
    have hrange := List.find?_some hfirst
    simp only [Bool.and_eq_true, decide_eq_true_eq] at hrange
    omega

/-- A run of digits is less than the power of ten that has one digit more. -/
theorem natOfDigits_lt (cs : List Char) : natOfDigits cs < 10 ^ cs.length := by
  induction cs using List.reverseRecOn with
  | nil => decide
  | append_singleton cs c ih =>
      have hd : (digitValue? c).getD 0 ≤ 9 := by
        cases hc : digitValue? c with
        | none => decide
        | some d => exact digitValue?_le hc
      rw [natOfDigits_append_singleton, List.length_append, List.length_singleton, pow_succ]
      omega

theorem natOfDigits_zeros (k : ℕ) : natOfDigits (List.replicate k '0') = 0 := by
  induction k with
  | zero => rfl
  | succ k ih =>
      rw [List.replicate_succ', natOfDigits_append_singleton, ih]
      rfl

/-- Reading the digits of a number gives the number back. -/
theorem natOfDigits_digitsOfNat (n : ℕ) : natOfDigits (digitsOfNat n) = n := by
  have hsame : ∀ cs : List Char, (∀ c ∈ cs, isAsciiDigit c) →
      natOfDigits cs = Nat.ofDigitChars 10 cs 0 := by
    intro cs
    induction cs using List.reverseRecOn with
    | nil => intro _; rfl
    | append_singleton cs c ih =>
        intro hall
        have hc : isAsciiDigit c := hall c (by simp)
        rw [natOfDigits_append_singleton, ih fun d hd => hall d (by simp [hd]),
          digitValue?_of_ascii hc]
        simp [Nat.ofDigitChars, Nat.mul_comm]
  rw [hsame _ fun c hc => isAsciiDigit_of_mem_digitsOfNat hc]
  exact Nat.ofDigitChars_ten_toDigits

/-! ## How many digits -/

theorem digitCount_pos (n : ℕ) : 0 < digitCount n := Nat.length_toDigits_pos

theorem lt_pow_digitCount (n : ℕ) : n < 10 ^ digitCount n :=
  (Nat.length_toDigits_le_iff (by decide) (digitCount_pos n)).mp le_rfl

theorem pow_digitCount_le {n : ℕ} (hn : n ≠ 0) : 10 ^ (digitCount n - 1) ≤ n := by
  rcases Nat.eq_zero_or_pos (digitCount n - 1) with h | h
  · rw [h, pow_zero]
    omega
  · by_contra hcon
    have hle : digitCount n ≤ digitCount n - 1 :=
      (Nat.length_toDigits_le_iff (by decide) h).mpr (by omega)
    have := digitCount_pos n
    omega

end Patchbay.Text
