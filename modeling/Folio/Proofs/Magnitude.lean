import Folio.Word.Length
import Mathlib.Algebra.Order.Field.Power
import Mathlib.Tactic.FieldSimp
import Mathlib.Tactic.Linarith
import Mathlib.Tactic.NormNum
import Mathlib.Tactic.Positivity
import Mathlib.Tactic.Ring

/-!
# Magnitudes

A positive quotient is rounded to a multiple of the power of two of its exponent, at which it has 53
bits, or to infinity (`Binary64.exponentOf_spec`, `Binary64.ofRatio_eq`). Whatever the size of a
quotient of at least one, rounding it gives infinity or at least half of it
(`Binary64.atLeast_ofRatio`). So a product is at least half the product of what its factors are at
least (`Binary64.AtLeast.mul`), and the integer part of a large number is large
(`Binary64.AtLeast.le_truncated`).
-/

set_option autoImplicit false
set_option relaxedAutoImplicit false

namespace Folio

namespace Binary64

/-- A number whose magnitude is at least a rational number; infinity is at least any. -/
def AtLeast (q : ℚ) : Binary64 → Prop
  | .nan => False
  | .infinite _ => True
  | .finite _ m e => q ≤ m * (2 : ℚ) ^ e

/-! ### Rounding -/

/-- Shifting a quotient multiplies it by a power of two. -/
theorem shifted_div (num den : Nat) (shift : Int) :
    ((shifted num den shift).1 : ℚ) / (shifted num den shift).2 =
      (num : ℚ) / den * 2 ^ shift := by
  unfold shifted twoTo
  split
  · next hleft =>
    obtain ⟨k, rfl⟩ := Int.eq_ofNat_of_zero_le hleft
    simp only [Int.toNat_natCast, Nat.pow_eq, Nat.cast_mul, Nat.cast_pow, Nat.cast_ofNat,
      zpow_natCast]
    ring
  · next hright =>
    obtain ⟨k, hk⟩ := Int.eq_ofNat_of_zero_le (by omega : 0 ≤ -shift)
    obtain rfl : shift = -k := by omega
    simp only [neg_neg, Int.toNat_natCast, Nat.pow_eq, Nat.cast_mul, Nat.cast_pow, Nat.cast_ofNat,
      zpow_neg, zpow_natCast]
    rw [← div_div, div_eq_mul_inv ((num : ℚ) / den)]

theorem shifted_pos {num den : Nat} (hden : 0 < den) (shift : Int) :
    0 < (shifted num den shift).2 := by
  unfold shifted
  split
  · exact hden
  · exact Nat.mul_pos hden (twoTo_pos _)

/-- Rounding to a whole number at most halves what is at least one. -/
theorem le_two_mul_roundedQuotient {num den : Nat} (hden : 0 < den) (hone : den ≤ num) :
    (num : ℚ) / den ≤ 2 * roundedQuotient num den := by
  have hround : num / den ≤ roundedQuotient num den := by
    unfold roundedQuotient
    dsimp only
    split
    · exact le_rfl
    · split
      · exact Nat.le_succ _
      · split
        · exact le_rfl
        · exact Nat.le_succ _
  have hquotient : 1 ≤ num / den := (Nat.one_le_div_iff hden).mpr hone
  have hnum : num ≤ 2 * (num / den) * den := by
    have hlt : num < (num / den + 1) * den := by
      rw [Nat.mul_comm]
      exact Nat.lt_mul_div_succ num hden
    exact hlt.le.trans (Nat.mul_le_mul_right den (by omega))
  have hboth : num ≤ 2 * roundedQuotient num den * den :=
    hnum.trans (Nat.mul_le_mul_right den (Nat.mul_le_mul_left 2 hround))
  rw [div_le_iff₀ (by positivity)]
  exact_mod_cast hboth

/-- A quotient is told by its numbers of bits up to a factor of two either way. -/
theorem zpow_log2_bounds {num den : Nat} (hnum : 0 < num) (hden : 0 < den) :
    (2 : ℚ) ^ ((num.log2 : Int) - den.log2 - 1) ≤ (num : ℚ) / den ∧
      (num : ℚ) / den < 2 ^ ((num.log2 : Int) - den.log2 + 1) := by
  have hdenPos : (0 : ℚ) < den := by exact_mod_cast hden
  have hnumLow : (2 : ℚ) ^ num.log2 ≤ num := by exact_mod_cast Nat.log2_self_le hnum.ne'
  have hnumHigh : (num : ℚ) < 2 ^ (num.log2 + 1) := by exact_mod_cast Nat.lt_log2_self
  have hdenLow : (2 : ℚ) ^ den.log2 ≤ den := by exact_mod_cast Nat.log2_self_le hden.ne'
  have hdenHigh : (den : ℚ) < 2 ^ (den.log2 + 1) := by exact_mod_cast Nat.lt_log2_self
  constructor
  · calc (2 : ℚ) ^ ((num.log2 : Int) - den.log2 - 1) = 2 ^ num.log2 / 2 ^ (den.log2 + 1) := by
          rw [sub_sub, zpow_sub₀ (by norm_num)]
          norm_cast
      _ ≤ num / den := div_le_div₀ (by positivity) hnumLow hdenPos hdenHigh.le
  · calc (num : ℚ) / den < 2 ^ (num.log2 + 1) / 2 ^ den.log2 :=
          div_lt_div₀ hnumHigh hdenLow (by positivity) (by positivity)
      _ = 2 ^ ((num.log2 : Int) - den.log2 + 1) := by
          rw [sub_add_eq_add_sub, zpow_sub₀ (by norm_num)]
          norm_cast

/-- The exponent of a quotient is the one at which it has 53 bits, unless that is too small. -/
theorem exponentOf_spec {num den : Nat} (hnum : 0 < num) (hden : 0 < den) :
    ∃ e : Int, exponentOf num den = max e (-1074) ∧
      (2 : ℚ) ^ (e + 52) ≤ (num : ℚ) / den ∧ (num : ℚ) / den < 2 ^ (e + 53) := by
  obtain ⟨hlow, hhigh⟩ := zpow_log2_bounds hnum hden
  have hshift := shifted_div num den (-((num.log2 : Int) - den.log2 - 52))
  have hpositive : 0 < (shifted num den (-((num.log2 : Int) - den.log2 - 52))).2 :=
    shifted_pos hden _
  unfold exponentOf
  dsimp only
  generalize shifted num den (-((num.log2 : Int) - den.log2 - 52)) = quotient at hshift hpositive ⊢
  obtain ⟨n, d⟩ := quotient
  dsimp only at hshift hpositive ⊢
  have hcompare : n < twoTo 52 * d ↔ (num : ℚ) / den < 2 ^ ((num.log2 : Int) - den.log2) := by
    have hscale : (0 : ℚ) < 2 ^ (-((num.log2 : Int) - den.log2 - 52)) := by positivity
    have hpower : (2 : ℚ) ^ ((num.log2 : Int) - den.log2) *
        2 ^ (-((num.log2 : Int) - den.log2 - 52)) = twoTo 52 := by
      rw [← zpow_add₀ (by norm_num), neg_sub, add_sub_cancel]
      norm_num [twoTo]
    rw [← mul_lt_mul_iff_left₀ hscale, hpower, ← hshift, div_lt_iff₀ (by exact_mod_cast hpositive)]
    norm_cast
  split
  · next hfew =>
    refine ⟨_, rfl, ?_, ?_⟩
    · rwa [sub_right_comm, sub_add_cancel]
    · have hexponent : (num.log2 : Int) - den.log2 - 52 - 1 + 53 = num.log2 - den.log2 := by ring
      rw [hexponent]
      exact hcompare.mp hfew
  · next hmany =>
    refine ⟨_, rfl, ?_, ?_⟩
    · rw [sub_add_cancel]
      exact not_lt.mp (mt hcompare.mpr hmany)
    · have hexponent : (num.log2 : Int) - den.log2 - 52 + 53 = num.log2 - den.log2 + 1 := by ring
      rwa [hexponent]

/-- A quotient has at most 53 bits at its exponent. -/
theorem lt_two_zpow_exponentOf {num den : Nat} (hnum : 0 < num) (hden : 0 < den) :
    (num : ℚ) / den < 2 ^ (exponentOf num den + 53) := by
  obtain ⟨e, hexponent, -, hmost⟩ := exponentOf_spec hnum hden
  exact hmost.trans_le (zpow_le_zpow_right₀ (by norm_num) (by omega))

/-- A quotient has at least 53 bits at its exponent, if that is not the least of the format. -/
theorem two_zpow_exponentOf_add_le {num den : Nat} (hnum : 0 < num) (hden : 0 < den)
    (h : -1074 < exponentOf num den) :
    (2 : ℚ) ^ (exponentOf num den + 52) ≤ (num : ℚ) / den := by
  obtain ⟨e, hexponent, hleast, -⟩ := exponentOf_spec hnum hden
  obtain rfl : exponentOf num den = e := by omega
  exact hleast

/-- The power of two that a quotient of at least one is rounded by is no larger than the
quotient. -/
theorem two_zpow_exponentOf_le {num den : Nat} (hden : 0 < den) (hone : den ≤ num) :
    (2 : ℚ) ^ exponentOf num den ≤ (num : ℚ) / den := by
  by_cases hleast : -1074 < exponentOf num den
  · exact (zpow_le_zpow_right₀ (by norm_num) (by omega)).trans
      (two_zpow_exponentOf_add_le (hden.trans_le hone) hden hleast)
  · have hquotient : (1 : ℚ) ≤ (num : ℚ) / den := by
      rw [one_le_div₀ (by positivity)]
      exact_mod_cast hone
    exact (zpow_le_one_of_nonpos₀ (by norm_num) (by omega)).trans hquotient

/-- Rounding a positive quotient gives the rounded multiple of the power of two of its exponent, or
infinity if that exponent is close to the largest. -/
theorem ofRatio_eq (negative : Bool) {num den : Nat} (hnum : 0 < num) (hden : 0 < den) :
    (∃ m e, ofRatio negative num den = .finite negative m e ∧
      (m : ℚ) * 2 ^ e =
        roundedQuotient (shifted num den (-exponentOf num den)).1
          (shifted num den (-exponentOf num den)).2 * 2 ^ exponentOf num den) ∨
    (ofRatio negative num den = .infinite negative ∧ 971 ≤ exponentOf num den) := by
  have hnonzero : (num = 0 || den = 0) = false := by simp [hnum.ne', hden.ne']
  simp only [ofRatio, hnonzero, Bool.false_eq_true, if_false]
  generalize exponentOf num den = e
  generalize roundedQuotient (shifted num den (-e)).1 (shifted num den (-e)).2 = m
  by_cases hcarry : m = twoTo 53
  · -- A mantissa of one bit too many is halved, and the exponent takes the bit.
    have hsame : (twoTo 52 : ℚ) * 2 ^ (e + 1) = m * 2 ^ e := by
      have hbit : twoTo 53 = twoTo 52 * 2 := twoTo_succ 52
      rw [hcarry, zpow_add₀ (by norm_num), hbit]
      push_cast
      ring
    simp only [hcarry, if_true]
    split
    · exact .inr ⟨rfl, by omega⟩
    · exact .inl ⟨_, _, rfl, by rw [hsame, hcarry]⟩
  · simp only [hcarry, if_false]
    split
    · exact .inr ⟨rfl, by omega⟩
    · exact .inl ⟨_, _, rfl, rfl⟩

/-- Rounding a quotient of at least one gives at least half of it. -/
theorem atLeast_ofRatio (negative : Bool) {num den : Nat} (hden : 0 < den) (hone : den ≤ num) :
    (ofRatio negative num den).AtLeast ((num : ℚ) / den / 2) := by
  rcases ofRatio_eq negative (hden.trans_le hone) hden with
    ⟨m, e, hfinite, hvalue⟩ | ⟨hinfinite, -⟩
  · have hpower : (0 : ℚ) < 2 ^ exponentOf num den := by positivity
    have hshift := shifted_div num den (-exponentOf num den)
    have hpositive : 0 < (shifted num den (-exponentOf num den)).2 := shifted_pos hden _
    have hlarge : (shifted num den (-exponentOf num den)).2 ≤
        (shifted num den (-exponentOf num den)).1 := by
      have hquotient := two_zpow_exponentOf_le hden hone
      rw [← one_le_div₀ hpower, div_eq_mul_inv, ← zpow_neg, ← hshift,
        one_le_div₀ (by exact_mod_cast hpositive)] at hquotient
      exact_mod_cast hquotient
    have hround := le_two_mul_roundedQuotient hpositive hlarge
    rw [hshift, zpow_neg, ← div_eq_mul_inv, div_le_iff₀ hpower] at hround
    rw [hfinite, AtLeast, hvalue]
    linarith
  · rw [hinfinite]
    trivial

/-! ### Operations -/

/-- Converting an integer other than zero at most halves it. -/
theorem atLeast_ofInt? {n : Int} {x : Binary64} (hn : n ≠ 0) (h : ofInt? n = some x) :
    x.AtLeast ((n.natAbs : ℚ) / 2) := by
  have hone : 1 ≤ n.natAbs := by omega
  have hratio := atLeast_ofRatio (decide (n < 0)) one_pos hone
  unfold ofInt? at h
  split at h
  · cases h
  · cases h
    simpa using hratio

/-- A product is at least half the product of what its factors are at least. -/
theorem AtLeast.mul {x y : Binary64} {a b : ℚ} (hx : x.AtLeast a) (hy : y.AtLeast b) (ha : 0 < a)
    (hb : 0 < b) (hone : 1 ≤ a * b) : (x.mul y).AtLeast (a * b / 2) := by
  have hpositive {q : ℚ} (hq : 0 < q) {m : Nat} {e : Int} (h : q ≤ m * (2 : ℚ) ^ e) : m ≠ 0 := by
    rintro rfl
    simp at h
    linarith
  cases x with
  | nan => exact hx.elim
  | infinite s =>
    cases y with
    | nan => exact hy.elim
    | infinite t => trivial
    | finite t n f =>
      simp only [Binary64.mul, hpositive hb hy, if_false]
      trivial
  | finite s m e =>
    cases y with
    | nan => exact hy.elim
    | infinite t =>
      simp only [Binary64.mul, hpositive ha hx, if_false]
      trivial
    | finite t n f =>
      have hshift := shifted_div (m * n) 1 (e + f)
      have hden : 0 < (shifted (m * n) 1 (e + f)).2 := shifted_pos one_pos _
      have hproduct : a * b ≤ ((m * n : Nat) : ℚ) / (1 : Nat) * 2 ^ (e + f) := by
        calc a * b ≤ (m * 2 ^ e) * (n * 2 ^ f) := mul_le_mul hx hy hb.le (ha.le.trans hx)
          _ = ((m * n : Nat) : ℚ) / (1 : Nat) * 2 ^ (e + f) := by
            rw [zpow_add₀ (by norm_num)]
            push_cast
            ring
      simp only [Binary64.mul]
      generalize shifted (m * n) 1 (e + f) = quotient at hshift hden ⊢
      obtain ⟨num, den⟩ := quotient
      dsimp only at hshift hden ⊢
      rw [← hshift] at hproduct
      have hle : den ≤ num := by
        have hquotient := hone.trans hproduct
        rw [one_le_div₀ (by positivity)] at hquotient
        exact_mod_cast hquotient
      have hratio := atLeast_ofRatio (s != t) hden hle
      rcases hmul : ofRatio (s != t) num den with _ | _ | ⟨u, k, g⟩
      · rw [hmul] at hratio
        exact hratio
      · trivial
      · rw [hmul] at hratio
        exact (div_le_div_of_nonneg_right hproduct (by norm_num)).trans hratio

/-- The integer part of a number is less than one below its magnitude. -/
theorem AtLeast.le_truncated {x : Binary64} {q : ℚ} (hx : x.AtLeast q) {n : Int}
    (h : x.truncated? = some n) : q ≤ n.natAbs + 1 := by
  cases x with
  | nan => cases h
  | infinite s => cases h
  | finite s m e =>
    refine hx.trans ?_
    obtain rfl := Option.some.inj h
    have hsign (k : Nat) : (if s = true then -(k : Int) else k).natAbs = k := by
      cases s <;> simp
    rw [hsign]
    split
    · next hleft =>
      obtain ⟨k, rfl⟩ := Int.eq_ofNat_of_zero_le hleft
      simp [twoTo]
    · next hright =>
      obtain ⟨k, hk⟩ := Int.eq_ofNat_of_zero_le (by omega : 0 ≤ -e)
      obtain rfl : e = -k := by omega
      have hfloor : m ≤ (m / twoTo k + 1) * twoTo k := by
        rw [Nat.mul_comm]
        exact (Nat.lt_mul_div_succ m (twoTo_pos k)).le
      have hpower : (0 : ℚ) < 2 ^ k := by positivity
      rw [neg_neg, Int.toNat_natCast, zpow_neg, zpow_natCast, ← div_eq_mul_inv, div_le_iff₀ hpower]
      have hcast : (m : ℚ) ≤ ((m / twoTo k : Nat) + 1) * (twoTo k : Nat) := by exact_mod_cast hfloor
      simpa [twoTo] using hcast

end Binary64

end Folio
