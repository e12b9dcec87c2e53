/-!
# Sets of characters given by ranges

A character class of the Unicode standard is kept as a list of closed ranges of code points, and
`Ranges.contains` is membership.
-/

set_option autoImplicit false
set_option relaxedAutoImplicit false

namespace Folio

/-- Closed ranges of code points, in ascending order. -/
abbrev Ranges := List (Nat × Nat)

namespace Ranges

/-- Whether the code point of `c` lies in one of the ranges. -/
def contains (ranges : Ranges) (c : Char) : Bool :=
  ranges.any fun r => r.1 ≤ c.toNat && c.toNat ≤ r.2

end Ranges

end Folio
