import Folio.Proofs.Dyadic
import Folio.Proofs.Magnitude
import Folio.Render.Block

/-!
# How far list items are indented

The indentation of a level is computed in binary64. It is exact as long as the level is no larger
than an indentation can be (`indentOfLevel_of_lt`), and beyond that, rounded or not, it is out of
range (`lt_indentOfLevel`). So list items can be indented exactly up to level 4697
(`isIndentable_iff`), always by a whole number of half inches.
-/

set_option autoImplicit false
set_option relaxedAutoImplicit false

namespace Folio

open Word Binary64

/-- Whether the items of a list at a level can be indented. -/
def isIndentable (level : Int) : Bool :=
  match indentOfLevel level with
  | .ok emu => decide (-Paragraph.maxIndent - 1 ≤ emu) && decide (emu ≤ Paragraph.maxIndent)
  | .error _ => false

/-- The indentation of a level that is not too large is a whole number of half inches. -/
theorem indentOfLevel_of_lt {level : Int} (hlt : level.natAbs < 2 ^ 32) :
    indentOfLevel level = .ok (level * 457200) := by
  by_cases hzero : level = 0
  · rw [hzero]
    decide +kernel
  · have hread := ofInt?_eq_dyadic hzero (by omega)
    have hunits := emuOfInches?_half (decide (level < 0)) (by omega : 0 < level.natAbs) hlt
    simp only [indentOfLevel, hread, listIndent, hunits, Except.ok.injEq, decide_eq_true_eq]
    split <;> omega

/-- The indentation of a level beyond that is out of range, if there is one. -/
theorem lt_indentOfLevel {level emu : Int} (hlarge : 2 ^ 32 ≤ level.natAbs)
    (h : indentOfLevel level = .ok emu) : 2 ^ 32 < emu.natAbs := by
  have hlevel : (2 : ℚ) ^ 32 ≤ level.natAbs := by exact_mod_cast hlarge
  have hhalf : listIndent.AtLeast (1 / 2) := by
    have hexact : listIndent = .finite false (2 ^ 52) (-53) := by decide +kernel
    rw [hexact]
    norm_num [AtLeast]
  have hinch : (Binary64.ofNat emuPerInch).AtLeast (914400 / 2) := by
    have hone : 1 ≤ emuPerInch := by decide
    simpa [emuPerInch, Binary64.ofNat] using atLeast_ofRatio false one_pos hone
  unfold indentOfLevel at h
  rcases hread : ofInt? level with _ | x
  · simp [hread] at h
  · rcases hunits : emuOfInches? (listIndent.mul x) with _ | units
    · simp [hread, hunits] at h
    · simp only [hread, hunits, Except.ok.injEq] at h
      subst h
      have hx := atLeast_ofInt? (by omega) hread
      have hinches := hhalf.mul hx (by norm_num) (by linarith) (by linarith)
      have hproduct := hinches.mul hinch (by linarith) (by norm_num) (by linarith)
      have htruncated := hproduct.le_truncated hunits
      have hbound : (2 : ℚ) ^ 32 < units.natAbs := by linarith
      exact_mod_cast hbound

/-- List items can be indented exactly up to level 4697. -/
theorem isIndentable_iff (level : Int) :
    isIndentable level = true ↔ -4697 ≤ level ∧ level ≤ 4697 := by
  have hrange : Paragraph.maxIndent = 2147483647 := rfl
  unfold isIndentable
  by_cases hlt : level.natAbs < 2 ^ 32
  · rw [indentOfLevel_of_lt hlt]
    simp only [hrange, Bool.and_eq_true, decide_eq_true_eq]
    omega
  · rcases hlevel : indentOfLevel level with e | emu
    · simp only [Bool.false_eq_true, false_iff]
      omega
    · have hlarge := lt_indentOfLevel (Nat.le_of_not_lt hlt) hlevel
      simp only [hrange, Bool.and_eq_true, decide_eq_true_eq]
      omega

end Folio
