/-!
# Powers of two and ten

The powers that numbers are scaled by, as plain functions of naturals.
-/

set_option autoImplicit false
set_option relaxedAutoImplicit false

namespace Folio

/-- Two to a natural exponent. -/
def twoTo (k : Nat) : Nat := Nat.pow 2 k

/-- Ten to a natural exponent. -/
def tenTo (k : Nat) : Nat := Nat.pow 10 k

theorem twoTo_succ (k : Nat) : twoTo (k + 1) = twoTo k * 2 := rfl

theorem twoTo_pos (k : Nat) : 0 < twoTo k := Nat.pow_pos (by decide)

end Folio
