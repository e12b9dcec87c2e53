import Folio.Number.Binary64

/-!
# Lengths

A document measures in English Metric Units, of which an inch has 914400, a point 12700 and a
twentieth of a point (a twip) 635. Lengths are converted to twips by rounding to the nearest, from
the middle to the even one.
-/

set_option autoImplicit false
set_option relaxedAutoImplicit false

namespace Folio.Word

/-- English Metric Units per inch. -/
def emuPerInch : Nat := 914400

/-- English Metric Units per point. -/
def emuPerPoint : Nat := 12700

/-- The whole units in a number of inches; none for a number that is not finite. -/
def emuOfInches? (inches : Binary64) : Option Int := (inches.mul (.ofNat emuPerInch)).truncated?

/-- A length in twips. -/
def twips (emu : Int) : Int := roundedDivide emu 635

/-- The largest extent of a drawing. -/
def maxDrawingExtent : Int := 27273042316900

/-- Whether a drawing may have an extent. -/
def isDrawingExtent (emu : Int) : Bool := decide (0 ≤ emu) && decide (emu ≤ maxDrawingExtent)

/-- The width of the text area of a page, in units. -/
def textWidth : Nat := 5486400

end Folio.Word
