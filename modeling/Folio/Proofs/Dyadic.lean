import Folio.Word.Length
import Mathlib.Tactic.Ring

/-!
# Exact arithmetic

A natural of at most 53 bits times a power of two is a number of the format (`Binary64.dyadic`), and
rounding such a quotient changes nothing (`Binary64.ofRatio_dyadic`). So conversion, products and
integer parts of such numbers are exact as long as they have no more bits
(`Binary64.ofInt?_eq_dyadic`, `Binary64.mul_dyadic`, `Binary64.truncated?_dyadic`).
-/

set_option autoImplicit false
set_option relaxedAutoImplicit false

namespace Folio

namespace Binary64

/-- The number that a positive natural of at most 53 bits gives, times a power of two. -/
def dyadic (negative : Bool) (k : Nat) (j : Int) : Binary64 :=
  .finite negative (k * 2 ^ (52 - k.log2)) (k.log2 - 52 + j)

section Dyadic

variable {k a b : Nat}

theorem log2_mul_two_pow (hk : 0 < k) (a : Nat) : (k * 2 ^ a).log2 = k.log2 + a := by
  have hpow : 0 < 2 ^ a := Nat.two_pow_pos a
  rw [Nat.log2_eq_iff (Nat.mul_pos hk hpow).ne', Nat.pow_add]
  refine ⟨Nat.mul_le_mul_right _ (Nat.log2_self_le hk.ne'), ?_⟩
  calc k * 2 ^ a < 2 ^ (k.log2 + 1) * 2 ^ a := Nat.mul_lt_mul_of_pos_right Nat.lt_log2_self hpow
    _ = 2 ^ (k.log2 + a + 1) := by ring

theorem log2_le (hk : 0 < k) (hlt : k < 2 ^ 53) : k.log2 ≤ 52 :=
  Nat.lt_succ_iff.mp ((Nat.log2_lt hk.ne').mpr hlt)

/-- The mantissa of a dyadic number has 53 bits. -/
theorem mantissa_bounds (hk : 0 < k) (hlt : k < 2 ^ 53) :
    2 ^ 52 ≤ k * 2 ^ (52 - k.log2) ∧ k * 2 ^ (52 - k.log2) < 2 ^ 53 := by
  have hbits := log2_le hk hlt
  have hpow : 0 < 2 ^ (52 - k.log2) := Nat.two_pow_pos _
  constructor
  · calc 2 ^ 52 = 2 ^ k.log2 * 2 ^ (52 - k.log2) := by rw [← Nat.pow_add]; congr 1; omega
      _ ≤ k * 2 ^ (52 - k.log2) := Nat.mul_le_mul_right _ (Nat.log2_self_le hk.ne')
  · calc k * 2 ^ (52 - k.log2) < 2 ^ (k.log2 + 1) * 2 ^ (52 - k.log2) :=
        Nat.mul_lt_mul_of_pos_right Nat.lt_log2_self hpow
      _ = 2 ^ 53 := by rw [← Nat.pow_add]; congr 1; omega

/-- Shifted to 53 bits, a dyadic quotient is its mantissa without remainder. -/
theorem shifted_dyadic (hk : 0 < k) (hlt : k < 2 ^ 53) (a b : Nat) :
    ∃ d, 0 < d ∧ shifted (k * 2 ^ a) (2 ^ b) (-((k.log2 : Int) + a - b - 52)) =
      (k * 2 ^ (52 - k.log2) * d, d) := by
  have hbits := log2_le hk hlt
  unfold shifted twoTo
  split
  · next hleft =>
    refine ⟨2 ^ b, Nat.two_pow_pos b, ?_⟩
    have hexponent : a + (-((k.log2 : Int) + a - b - 52)).toNat = 52 - k.log2 + b := by omega
    simp only [Nat.pow_eq, Nat.mul_assoc, ← Nat.pow_add, hexponent]
  · next hright =>
    refine ⟨2 ^ b * 2 ^ (- -((k.log2 : Int) + a - b - 52)).toNat,
      Nat.mul_pos (Nat.two_pow_pos _) (Nat.two_pow_pos _), ?_⟩
    have hexponent : 52 - k.log2 + (b + (- -((k.log2 : Int) + a - b - 52)).toNat) = a := by omega
    simp only [Nat.pow_eq, Nat.mul_assoc, ← Nat.pow_add, hexponent]

theorem roundedQuotient_mul (m : Nat) {d : Nat} (hd : 0 < d) : roundedQuotient (m * d) d = m := by
  simp [roundedQuotient, Nat.mul_div_cancel m hd, hd]

theorem roundedDivide_mul (n : Int) {d : Nat} (hd : 0 < d) : roundedDivide (n * d) d = n := by
  cases n with
  | ofNat k => exact congrArg Int.ofNat (roundedQuotient_mul k hd)
  | negSucc k =>
    have hpositive : 0 < (k + 1) * d := Nat.mul_pos k.succ_pos hd
    have hproduct : Int.negSucc k * d = Int.negSucc ((k + 1) * d - 1) := by
      rw [Int.negSucc_eq, Int.negSucc_eq]
      push_cast [Nat.cast_sub hpositive]
      ring
    rw [hproduct, roundedDivide, Nat.sub_add_cancel hpositive, roundedQuotient_mul _ hd]
    rfl

/-- Rounding a dyadic quotient within the range of the format changes nothing. -/
theorem ofRatio_dyadic (negative : Bool) (hk : 0 < k) (hlt : k < 2 ^ 53)
    (hlow : -1000 ≤ (a : Int) - b) (hhigh : (a : Int) - b ≤ 900) :
    ofRatio negative (k * 2 ^ a) (2 ^ b) = dyadic negative k (a - b) := by
  have hbits := log2_le hk hlt
  obtain ⟨hfirst, hlast⟩ := mantissa_bounds hk hlt
  obtain ⟨d, hd, hshifted⟩ := shifted_dyadic hk hlt a b
  have hexponent : exponentOf (k * 2 ^ a) (2 ^ b) = (k.log2 : Int) + a - b - 52 := by
    have hlarge : ¬ k * 2 ^ (52 - k.log2) * d < twoTo 52 * d :=
      Nat.not_lt.mpr (Nat.mul_le_mul_right d hfirst)
    simp only [exponentOf, log2_mul_two_pow hk, Nat.log2_two_pow, Nat.cast_add, hshifted, hlarge,
      if_false]
    omega
  have hnonzero : (k * 2 ^ a = 0 || 2 ^ b = 0) = false := by
    simp [hk.ne']
  have hmantissa : ¬ k * 2 ^ (52 - k.log2) = twoTo 53 := Nat.ne_of_lt hlast
  have hrange : ¬ 971 < (k.log2 : Int) + a - b - 52 := by omega
  simp only [ofRatio, hnonzero, hexponent, hshifted, roundedQuotient_mul _ hd, hmantissa, hrange,
    Bool.false_eq_true, if_false, dyadic]
  congr 1
  omega

/-- Converting an integer of at most 53 bits is exact. -/
theorem ofInt?_eq_dyadic {n : Int} (hn : n ≠ 0) (hlt : n.natAbs < 2 ^ 53) :
    ofInt? n = some (dyadic (decide (n < 0)) n.natAbs 0) := by
  have hratio := ofRatio_dyadic (decide (n < 0)) (by omega) hlt (a := 0) (b := 0) (by omega)
    (by omega)
  simp only [Nat.pow_zero, Nat.mul_one] at hratio
  simp only [ofInt?, hratio]
  rfl

/-- The product of dyadic numbers is exact if it has at most 53 bits. -/
theorem mul_dyadic (s t : Bool) {l : Nat} {i j : Int} (hk : 0 < k) (hl : 0 < l)
    (hlt : k * l < 2 ^ 53) (hlow : -400 ≤ i ∧ -400 ≤ j) (hhigh : i ≤ 400 ∧ j ≤ 400) :
    (dyadic s k i).mul (dyadic t l j) = dyadic (s != t) (k * l) (i + j) := by
  have hkbits := log2_le hk ((Nat.le_mul_of_pos_right k hl).trans_lt hlt)
  have hlbits := log2_le hl ((Nat.le_mul_of_pos_left l hk).trans_lt hlt)
  have hproduct : k * 2 ^ (52 - k.log2) * (l * 2 ^ (52 - l.log2)) =
      k * l * 2 ^ (52 - k.log2 + (52 - l.log2)) := by
    rw [Nat.pow_add]
    ring
  obtain ⟨a, b, hshifted, hsum⟩ : ∃ a b : Nat,
      shifted (k * l * 2 ^ (52 - k.log2 + (52 - l.log2))) 1
        ((k.log2 : Int) - 52 + i + (l.log2 - 52 + j)) = (k * l * 2 ^ a, 2 ^ b) ∧
      (a : Int) - b = i + j := by
    unfold shifted twoTo
    split
    · refine ⟨52 - k.log2 + (52 - l.log2) +
        ((k.log2 : Int) - 52 + i + (l.log2 - 52 + j)).toNat, 0, ?_, by omega⟩
      rw [Nat.pow_add 2 (52 - k.log2 + (52 - l.log2)), ← Nat.mul_assoc]
      rfl
    · refine ⟨52 - k.log2 + (52 - l.log2),
        (-((k.log2 : Int) - 52 + i + (l.log2 - 52 + j))).toNat, ?_, by omega⟩
      rw [Nat.one_mul]
      rfl
  simp only [dyadic, mul, hproduct, hshifted]
  rw [ofRatio_dyadic (s != t) (Nat.mul_pos hk hl) hlt (by omega) (by omega), hsum, dyadic]

/-- The integer part of a dyadic number. -/
theorem truncated?_dyadic (negative : Bool) (hk : 0 < k) (hlt : k < 2 ^ 53) (n : Nat) :
    (dyadic negative k (-n)).truncated? =
      some (if negative then -((k / 2 ^ n : Nat) : Int) else (k / 2 ^ n : Nat)) := by
  have hbits := log2_le hk hlt
  have hvalue : (if 0 ≤ (k.log2 : Int) - 52 + -n then
        k * 2 ^ (52 - k.log2) * twoTo ((k.log2 : Int) - 52 + -n).toNat
      else k * 2 ^ (52 - k.log2) / twoTo (-((k.log2 : Int) - 52 + -n)).toNat) = k / 2 ^ n := by
    split
    · have hzero : n = 0 := by omega
      have hall : k.log2 = 52 := by omega
      simp [hzero, hall, twoTo]
    · have hexponent : (-((k.log2 : Int) - 52 + -n)).toNat = n + (52 - k.log2) := by omega
      rw [hexponent, twoTo, Nat.pow_eq, Nat.pow_add]
      exact Nat.mul_div_mul_right k (2 ^ n) (Nat.two_pow_pos _)
  simp only [dyadic, truncated?, hvalue]

end Dyadic

end Binary64

open Word Binary64

/-- A whole number of halves of an inch is a whole number of units. -/
theorem emuOfInches?_half (negative : Bool) {k : Nat} (hk : 0 < k) (hlt : k < 2 ^ 32) :
    emuOfInches? ((Binary64.ofRatio false 1 2).mul (dyadic negative k 0)) =
      some (if negative then -(k * 457200 : Int) else k * 457200) := by
  have hhalf : Binary64.ofRatio false 1 2 = dyadic false 1 (-1) := by decide +kernel
  have hinch : Binary64.ofNat emuPerInch = dyadic false 914400 0 := by decide +kernel
  rw [emuOfInches?, hhalf, hinch, mul_dyadic false negative (by omega) hk (by omega) (by omega)
    (by omega), mul_dyadic _ false (by omega) (by omega) (by omega) (by omega) (by omega)]
  have hexponent : (-1 + 0 + 0 : Int) = -(1 : Nat) := by decide
  have hunits : 1 * k * 914400 / 2 ^ 1 = k * 457200 := by omega
  rw [Bool.false_bne, Bool.bne_false, hexponent,
    truncated?_dyadic negative (by omega) (by omega), hunits]
  push_cast
  rfl

end Folio
