import Folio.Proofs.Magnitude
import Mathlib.Algebra.Order.Floor.Ring
import Mathlib.Data.Rat.Floor

/-!
# Extents of drawings

A length in inches is converted to units by a rounded product, whose whole part is to be an extent
that a drawing may have. The largest extent has 45 bits, so products next to it are rounded to a
multiple of `2 ^ (-8)`, and the limit is half such a step below the next whole unit
(`Binary64.ofRatio_below_iff`). A positive length fits a drawing exactly if it is a number below that
limit (`fitsDrawing_iff`).
-/

set_option autoImplicit false
set_option relaxedAutoImplicit false

namespace Folio

namespace Binary64

/-! ### Rounding at a limit -/

/-- A quotient rounds to less than an even number exactly if it is more than half below it. -/
theorem roundedQuotient_lt_iff {n d k : Nat} (hd : 0 < d) (hk : k % 2 = 0) :
    roundedQuotient n d < k ↔ (n : ℚ) / d < k - 1 / 2 := by
  have hwhole : (n : ℚ) / d < k - 1 / 2 ↔ 2 * n + d < 2 * k * d := by
    rw [div_lt_iff₀ (by positivity), ← Nat.cast_lt (α := ℚ)]
    push_cast
    constructor <;> intro h <;> linarith
  rw [hwhole]
  have hn : n = d * (n / d) + n % d := (Nat.div_add_mod n d).symm
  have hr : n % d < d := Nat.mod_lt n hd
  unfold roundedQuotient
  dsimp only
  generalize n / d = q at hn ⊢
  generalize n % d = r at hn hr ⊢
  subst hn
  rcases Nat.lt_trichotomy (q + 1) k with hlt | rfl | hgt
  · obtain ⟨j, rfl⟩ := Nat.exists_eq_add_of_lt hlt
    have hproduct : 2 * (q + 1 + j + 1) * d = 2 * (d * q) + 2 * (d * j) + 4 * d := by ring
    refine iff_of_true ?_ (by omega)
    split
    · omega
    · split
      · omega
      · split <;> omega
  · have hproduct : 2 * (q + 1) * d = 2 * (d * q) + 2 * d := by ring
    rw [hproduct]
    split
    · omega
    · split
      · omega
      · split <;> omega
  · obtain ⟨j, rfl⟩ := Nat.exists_eq_add_of_le (Nat.lt_succ_iff.mp hgt)
    have hproduct : d * (k + j) = d * k + d * j := by ring
    have hlimit : 2 * k * d = 2 * (d * k) := by ring
    refine iff_of_false ?_ (by omega)
    split
    · omega
    · split
      · omega
      · split <;> omega

/-- The whole part of a number without a sign. -/
theorem truncated?_eq_floor (m : Nat) (e : Int) :
    (finite false m e).truncated? = some ⌊(m : ℚ) * 2 ^ e⌋ := by
  rw [truncated?]
  simp only [Bool.false_eq_true, if_false, Option.some.injEq]
  split
  · next hleft =>
    obtain ⟨k, rfl⟩ := Int.eq_ofNat_of_zero_le hleft
    have hwhole : (m : ℚ) * 2 ^ (k : Int) = ((m * twoTo k : Nat) : ℚ) := by
      simp [twoTo]
    rw [hwhole, Int.floor_natCast]
    rfl
  · next hright =>
    obtain ⟨k, hk⟩ := Int.eq_ofNat_of_zero_le (by omega : 0 ≤ -e)
    obtain rfl : e = -k := by omega
    have hquotient : (m : ℚ) * 2 ^ (-k : Int) = (m : ℚ) / (twoTo k : Nat) := by
      simp [twoTo, div_eq_mul_inv]
    rw [hquotient, Rat.floor_natCast_div_natCast]
    simp

/-- What a positive quotient is rounded to is below an even multiple of the power of two of its exponent
exactly if the quotient is more than half of the power below that multiple. -/
theorem lt_iff_of_ofRatio {negative : Bool} {num den : Nat} (hnum : 0 < num) (hden : 0 < den)
    {m : Nat} {e : Int} (h : ofRatio negative num den = .finite negative m e) {k : Nat}
    (hk : k % 2 = 0) :
    (m : ℚ) * 2 ^ e < k * 2 ^ exponentOf num den ↔
      (num : ℚ) / den < (k - 1 / 2) * 2 ^ exponentOf num den := by
  have hpower : (0 : ℚ) < 2 ^ exponentOf num den := by positivity
  rcases ofRatio_eq negative hnum hden with ⟨m', e', hrounded, hvalue⟩ | ⟨hinfinite, -⟩
  · obtain ⟨-, rfl, rfl⟩ := Binary64.finite.inj (h.symm.trans hrounded)
    rw [hvalue, mul_lt_mul_iff_left₀ hpower, Nat.cast_lt,
      roundedQuotient_lt_iff (shifted_pos hden _) hk, shifted_div, zpow_neg, ← div_eq_mul_inv,
      div_lt_iff₀ hpower]
  · cases h.symm.trans hinfinite

/-- A quotient with an exponent below `-8`, and what it is rounded to, are small. -/
theorem lt_of_exponentOf_le {num den : Nat} (hnum : 0 < num) (hden : 0 < den)
    (h : exponentOf num den ≤ -9) :
    (num : ℚ) / den < 2 ^ 44 ∧
      ∃ m e, ofRatio false num den = .finite false m e ∧ (m : ℚ) * 2 ^ e < 2 ^ 44 + 1 := by
  have hpower : (2 : ℚ) ^ exponentOf num den ≤ 2 ^ (-9 : Int) :=
    zpow_le_zpow_right₀ (by norm_num) h
  have hquotient := lt_two_zpow_exponentOf hnum hden
  rw [zpow_add₀ (by norm_num)] at hquotient
  rcases ofRatio_eq false hnum hden with ⟨m, e, hfinite, -⟩ | ⟨-, hlast⟩
  · have hrounded : (m : ℚ) * 2 ^ e < (2 ^ 53 + 2 : Nat) * 2 ^ exponentOf num den := by
      refine (lt_iff_of_ofRatio hnum hden hfinite (by norm_num)).mpr (hquotient.trans ?_)
      have hpositive : (0 : ℚ) < 2 ^ exponentOf num den := by positivity
      push_cast
      norm_num
      linarith
    norm_num at hpower hquotient hrounded
    exact ⟨by linarith, m, e, hfinite, by linarith⟩
  · omega

/-- A quotient with an exponent above `-8`, and what it is rounded to, are large. -/
theorem le_of_le_exponentOf {num den : Nat} (hnum : 0 < num) (hden : 0 < den)
    (h : -7 ≤ exponentOf num den) :
    2 ^ 45 ≤ (num : ℚ) / den ∧
      ∀ m e, ofRatio false num den = .finite false m e → 2 ^ 45 ≤ (m : ℚ) * 2 ^ e := by
  have hpower : (2 : ℚ) ^ (-7 : Int) ≤ 2 ^ exponentOf num den :=
    zpow_le_zpow_right₀ (by norm_num) h
  have hquotient := two_zpow_exponentOf_add_le hnum hden (by omega)
  rw [zpow_add₀ (by norm_num)] at hquotient
  have hrounded : ∀ m e, ofRatio false num den = .finite false m e →
      ((2 ^ 52 : Nat) : ℚ) * 2 ^ exponentOf num den ≤ m * 2 ^ e := by
    intro m e hfinite
    rw [← not_lt, lt_iff_of_ofRatio hnum hden hfinite (by norm_num)]
    have hpositive : (0 : ℚ) < 2 ^ exponentOf num den := by positivity
    push_cast
    norm_num at hquotient ⊢
    linarith
  norm_num at hpower hquotient hrounded ⊢
  exact ⟨by linarith, fun m e hfinite ↦ by linarith [hrounded m e hfinite]⟩

/-- Rounding a quotient with the exponent `-8`: it is rounded to less than a number exactly if it is
more than half of `2 ^ (-8)` below it. -/
theorem below_iff_of_exponentOf_eq {num den : Nat} (hnum : 0 < num) (hden : 0 < den)
    (h : exponentOf num den = -8) (limit : Nat) :
    (∃ m e, ofRatio false num den = .finite false m e ∧ (m : ℚ) * 2 ^ e < limit) ↔
      (num : ℚ) / den < limit - 1 / 512 := by
  rcases ofRatio_eq false hnum hden with ⟨m, e, hfinite, -⟩ | ⟨-, hlast⟩
  · have hbelow := lt_iff_of_ofRatio hnum hden hfinite (k := 256 * limit) (by omega)
    have hlimit : ((256 * limit : Nat) : ℚ) * 2 ^ (-8 : Int) = limit := by
      push_cast
      norm_num
      ring
    have hhalf : (((256 * limit : Nat) : ℚ) - 1 / 2) * 2 ^ (-8 : Int) = limit - 1 / 512 := by
      rw [sub_mul, hlimit]
      norm_num
    rw [h, hlimit, hhalf] at hbelow
    rw [← hbelow]
    constructor
    · rintro ⟨m', e', hfinite', hless⟩
      obtain ⟨-, rfl, rfl⟩ := Binary64.finite.inj (hfinite.symm.trans hfinite')
      exact hless
    · exact fun hless ↦ ⟨m, e, hfinite, hless⟩
  · omega

/-- Rounding a quotient next to a number of 45 bits: it is rounded to less than the number exactly if
it is more than half of `2 ^ (-8)` below it. -/
theorem ofRatio_below_iff {num den : Nat} (hnum : 0 < num) (hden : 0 < den) (limit : Nat)
    (hlow : 2 ^ 44 < limit) (hhigh : limit ≤ 2 ^ 45) :
    (∃ m e, ofRatio false num den = .finite false m e ∧ (m : ℚ) * 2 ^ e < limit) ↔
      (num : ℚ) / den < limit - 1 / 512 := by
  have hleast : (2 : ℚ) ^ 44 + 1 ≤ limit := by exact_mod_cast hlow
  have hmost : (limit : ℚ) ≤ 2 ^ 45 := by exact_mod_cast hhigh
  rcases lt_trichotomy (exponentOf num den) (-8) with hfew | hequal | hmany
  · obtain ⟨hquotient, m, e, hfinite, hrounded⟩ := lt_of_exponentOf_le hnum hden (by omega)
    exact iff_of_true ⟨m, e, hfinite, hrounded.trans_le hleast⟩ (by linarith)
  · exact below_iff_of_exponentOf_eq hnum hden hequal limit
  · obtain ⟨hquotient, hrounded⟩ := le_of_le_exponentOf hnum hden (by omega)
    refine iff_of_false ?_ (by linarith)
    rintro ⟨m, e, hfinite, hless⟩
    exact absurd (hmost.trans (hrounded m e hfinite)) (not_le.mpr hless)

/-! ### Numbers above zero -/

/-- A number above zero. Infinity may be one. -/
def IsPositive : Binary64 → Prop
  | .nan => False
  | .infinite negative => negative = false
  | .finite negative m _ => negative = false ∧ 0 < m

/-- What is not zero or below is above zero, or no number. -/
theorem isPositive_iff {x : Binary64} (h : x.isNonPositive = false) : x.IsPositive ↔ x ≠ .nan := by
  cases x with
  | nan => simp [IsPositive]
  | infinite negative => simpa [IsPositive, isNonPositive] using h
  | finite negative m e =>
    simp only [isNonPositive, Bool.or_eq_false_iff, beq_eq_false_iff_ne] at h
    simp [IsPositive, h.1, Nat.pos_of_ne_zero h.2]

end Binary64

open Word Binary64

/-! ### Lengths that fit -/

/-- Whether a length in inches fits a drawing: it is a number of units that an extent may have. -/
def FitsDrawing (inches : Binary64) : Prop :=
  ∃ emu, emuOfInches? inches = some emu ∧ isDrawingExtent emu = true

/-- The least number of inches that does not fit a drawing: half a step of rounding below the units
behind the largest extent. -/
def drawingLimit : ℚ := (maxDrawingExtent + 1 - 1 / 512) / emuPerInch

theorem ofNat_emuPerInch :
    Binary64.ofNat emuPerInch = .finite false (914400 * 2 ^ 33) (-33) := by decide +kernel

/-- The units in a positive finite number of inches are the whole part of the rounded product. -/
theorem emuOfInches?_finite {m : Nat} (hm : 0 < m) (e : Int) :
    ∃ num den : Nat, 0 < num ∧ 0 < den ∧ (num : ℚ) / den = m * 2 ^ e * emuPerInch ∧
      emuOfInches? (.finite false m e) = (ofRatio false num den).truncated? := by
  have hvalue : (((m * (914400 * 2 ^ 33) : Nat) : ℚ) / (1 : Nat)) * 2 ^ (e + -33) =
      m * 2 ^ e * emuPerInch := by
    rw [zpow_add₀ (by norm_num), emuPerInch]
    push_cast
    norm_num
    ring
  have hshift := (shifted_div (m * (914400 * 2 ^ 33)) 1 (e + -33)).trans hvalue
  have hden : 0 < (shifted (m * (914400 * 2 ^ 33)) 1 (e + -33)).2 := shifted_pos one_pos _
  refine ⟨_, _, Nat.pos_of_ne_zero fun hzero ↦ ?_, hden, hshift, 
    by rw [emuOfInches?, ofNat_emuPerInch]; rfl⟩
  have hpositive : (0 : ℚ) < m * 2 ^ e * emuPerInch := by
    rw [emuPerInch]
    positivity
  rw [hzero] at hshift
  simp only [Nat.cast_zero, zero_div] at hshift
  exact hpositive.ne hshift

/-- A whole part is an extent of a drawing exactly if the number is less than one unit above the
largest. -/
theorem isDrawingExtent_floor {q : ℚ} (hq : 0 ≤ q) :
    isDrawingExtent ⌊q⌋ = true ↔ q < (27273042316901 : Nat) := by
  rw [isDrawingExtent, Bool.and_eq_true, decide_eq_true_eq, decide_eq_true_eq]
  have hbelow : ⌊q⌋ ≤ maxDrawingExtent ↔ q < (27273042316901 : Nat) := by
    rw [← Int.lt_add_one_iff, Int.floor_lt, maxDrawingExtent]
    norm_num
  rw [hbelow]
  exact and_iff_right (Int.floor_nonneg.mpr hq)

theorem not_fitsDrawing_nan : ¬FitsDrawing .nan := by
  rintro ⟨emu, hemu, -⟩
  cases hemu

/-- A positive length fits a drawing exactly if it is below the limit. -/
theorem fitsDrawing_iff {x : Binary64} (hx : x.IsPositive) :
    FitsDrawing x ↔ ¬x.AtLeast drawingLimit := by
  cases x with
  | nan => exact hx.elim
  | infinite negative =>
    refine iff_of_false ?_ (not_not.mpr trivial)
    rintro ⟨emu, hemu, -⟩
    rw [emuOfInches?, ofNat_emuPerInch] at hemu
    cases hemu
  | finite negative m e =>
    obtain ⟨rfl, hm⟩ := hx
    obtain ⟨num, den, hnum, hden, hvalue, hunits⟩ := emuOfInches?_finite hm e
    have hbelow := ofRatio_below_iff hnum hden 27273042316901 (by norm_num) (by norm_num)
    have hlimit : (num : ℚ) / den < (27273042316901 : Nat) - 1 / 512 ↔
        ¬(finite false m e).AtLeast drawingLimit := by
      rw [hvalue, AtLeast, not_le, drawingLimit, lt_div_iff₀ (by norm_num [emuPerInch])]
      norm_num [maxDrawingExtent]
    rw [← hlimit, ← hbelow]
    constructor
    · rintro ⟨emu, hemu, hextent⟩
      rw [hunits] at hemu
      rcases ofRatio_eq false hnum hden with ⟨m', e', hfinite, -⟩ | ⟨hinfinite, -⟩
      · rw [hfinite, truncated?_eq_floor] at hemu
        cases hemu
        exact ⟨m', e', hfinite, (isDrawingExtent_floor (by positivity)).mp hextent⟩
      · rw [hinfinite] at hemu
        cases hemu
    · rintro ⟨m', e', hfinite, hless⟩
      refine ⟨_, by rw [hunits, hfinite, truncated?_eq_floor], ?_⟩
      exact (isDrawingExtent_floor (by positivity)).mpr hless

/-- The limit lies between these two numbers of inches. -/
example : (emuOfInches? (.ofNat 29826161)).any isDrawingExtent = true ∧
    (emuOfInches? (.ofNat 29826162)).any isDrawingExtent = false := by decide +kernel

end Folio
