import Folio.Number.Power

/-!
# Binary floating-point numbers

Numbers of the IEEE 754 format binary64 as data: not-a-number, the two infinities, and the finite
numbers as a sign, a mantissa and a power of two. Every operation computes its exact result as a
quotient of natural numbers and rounds once, to the nearest number and from the middle to the even
mantissa (`ofRatio`). So each result is the one that the standard prescribes, and each step is
ordinary arithmetic on naturals.
-/

set_option autoImplicit false
set_option relaxedAutoImplicit false

namespace Folio

/-- The quotient of two naturals rounded to the nearest natural, from the middle to the even one. -/
def roundedQuotient (num den : Nat) : Nat :=
  let q := num / den
  let r := num % den
  if 2 * r < den then q else if den < 2 * r then q + 1 else if q % 2 = 0 then q else q + 1

/-- An integer divided by a positive natural, rounded to nearest and from the middle to even. -/
def roundedDivide (n : Int) (den : Nat) : Int :=
  match n with
  | .ofNat k => (roundedQuotient k den : Int)
  | .negSucc k => -(roundedQuotient (k + 1) den : Int)

/-- A binary64 number. A finite one stands for its mantissa times two to its exponent; numbers are
built so that the mantissa is below `2 ^ 53`, the exponent at least `-1074`, and the mantissa at
least `2 ^ 52` unless the exponent is `-1074`. -/
inductive Binary64
  | nan
  | infinite (negative : Bool)
  | finite (negative : Bool) (mantissa : Nat) (exponent : Int)
  deriving DecidableEq, Repr, Inhabited

namespace Binary64

/-- Zero with a sign. -/
def zero (negative : Bool) : Binary64 := .finite negative 0 (-1074)

/-- `num · 2 ^ shift / den` as a pair of naturals, whatever the sign of the shift. -/
def shifted (num den : Nat) (shift : Int) : Nat × Nat :=
  if 0 ≤ shift then (num * twoTo shift.toNat, den) else (num, den * twoTo (-shift).toNat)

/-- The binary exponent at which a positive quotient has a mantissa of 53 bits, or the least
exponent of the format if that is larger. -/
def exponentOf (num den : Nat) : Int :=
  let e : Int := (Nat.log2 num : Int) - (Nat.log2 den : Int) - 52
  let (n, d) := shifted num den (-e)
  max (if n < twoTo 52 * d then e - 1 else e) (-1074)

/-- The number nearest to a quotient of naturals. -/
def ofRatio (negative : Bool) (num den : Nat) : Binary64 :=
  if num = 0 || den = 0 then zero negative
  else
    let e := exponentOf num den
    let (n, d) := shifted num den (-e)
    let m := roundedQuotient n d
    let (m, e) := if m = twoTo 53 then (twoTo 52, e + 1) else (m, e)
    if 971 < e then .infinite negative else .finite negative m e

/-- The number nearest to a natural. -/
def ofNat (n : Nat) : Binary64 := ofRatio false n 1

/-- The number nearest to an integer, if there is one: an integer beyond the largest finite number
has none. -/
def ofInt? (n : Int) : Option Binary64 :=
  match ofRatio (decide (n < 0)) n.natAbs 1 with
  | .infinite _ => none
  | x => some x

/-- One for true, zero for false. -/
def ofBool (b : Bool) : Binary64 := ofNat b.toNat

/-- Whether a number is zero or below. Not-a-number is not. -/
def isNonPositive : Binary64 → Bool
  | .nan => false
  | .infinite negative => negative
  | .finite negative m _ => negative || m == 0

/-- The negative of a number. -/
def neg : Binary64 → Binary64
  | .nan => .nan
  | .infinite s => .infinite (!s)
  | .finite s m e => .finite (!s) m e

/-- The rounded product. -/
def mul : Binary64 → Binary64 → Binary64
  | .nan, _ => .nan
  | _, .nan => .nan
  | .infinite s, .infinite t => .infinite (s != t)
  | .infinite s, .finite t m _ => if m = 0 then .nan else .infinite (s != t)
  | .finite s m _, .infinite t => if m = 0 then .nan else .infinite (s != t)
  | .finite s m e, .finite t n f =>
    let (num, den) := shifted (m * n) 1 (e + f)
    ofRatio (s != t) num den

/-- The rounded sum. -/
def add : Binary64 → Binary64 → Binary64
  | .nan, _ => .nan
  | _, .nan => .nan
  | .infinite s, .infinite t => if s = t then .infinite s else .nan
  | .infinite s, .finite _ _ _ => .infinite s
  | .finite _ _ _, .infinite t => .infinite t
  | .finite s m e, .finite t n f =>
    let low := min e f
    let a : Int := (m * twoTo (e - low).toNat : Nat)
    let b : Int := (n * twoTo (f - low).toNat : Nat)
    let sum := (if s then -a else a) + (if t then -b else b)
    if sum = 0 then zero (s && t)
    else
      let (num, den) := shifted sum.natAbs 1 low
      ofRatio (decide (sum < 0)) num den

/-- The rounded quotient of a number by a positive natural that the format holds exactly. -/
def divNat (x : Binary64) (d : Nat) : Binary64 :=
  match x with
  | .nan => .nan
  | .infinite s => .infinite s
  | .finite s m e =>
    let (num, den) := shifted m d e
    ofRatio s num den

/-- The integer part, for a finite number. -/
def truncated? : Binary64 → Option Int
  | .finite s m e =>
    let n := if 0 ≤ e then m * twoTo e.toNat else m / twoTo (-e).toNat
    some (if s then -(n : Int) else n)
  | _ => none

end Binary64

end Folio
