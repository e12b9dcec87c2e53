import Folio.Number.Binary64

/-!
# Numbers as shortest decimals

A finite number is written with the fewest decimal digits that read back as the same number, and
with the digits nearest to it among those. The search runs on exact naturals: for one digit, two
digits and so on, the two neighbours of the number on that decimal grid are tested against the
interval of reals that round to the number.
-/

set_option autoImplicit false
set_option relaxedAutoImplicit false

namespace Folio

/-- A decimal: `digits · 10 ^ exponent`. -/
structure Decimal where
  digits : Nat
  exponent : Int
  deriving DecidableEq, Repr

namespace Decimal

/-- A decimal as a quotient of naturals. -/
def ratio (x : Decimal) : Nat × Nat :=
  if 0 ≤ x.exponent then (x.digits * tenTo x.exponent.toNat, 1)
  else (x.digits, tenTo (-x.exponent).toNat)

/-- The number nearest to a decimal with a sign. Exponents far outside the format are settled
without computing the power of ten. -/
def toBinary64 (negative : Bool) (x : Decimal) : Binary64 :=
  if x.digits = 0 then .zero negative
  else
    let magnitude : Int := (Nat.toDigits 10 x.digits).length + x.exponent
    if 400 < magnitude then .infinite negative
    else if magnitude < -400 then .zero negative
    else .ofRatio negative x.ratio.1 x.ratio.2

end Decimal

namespace Binary64

/-- The greatest power of ten that is at most a positive quotient. -/
def decimalExponent (num den : Nat) : Int :=
  if den ≤ num then ((Nat.toDigits 10 (num / den)).length : Int) - 1
  else -((List.range 400).find? fun k => den ≤ num * tenTo (k + 1)).getD 0 - 1

/-- The reals that round to a positive number, as numerators over four times a power of two: the
number itself is `4 · mantissa` there, its neighbours' middles lie 2 away, 1 below a power of two. -/
structure Interval where
  low : Nat
  value : Nat
  high : Nat
  den : Nat
  closed : Bool

/-- The interval of a mantissa and an exponent. -/
def interval (m : Nat) (e : Int) : Interval :=
  let gap := if m = twoTo 52 && decide (-1074 < e) then 1 else 2
  let scale := if 0 ≤ e then twoTo e.toNat else 1
  let den := if 0 ≤ e then 4 else 4 * twoTo (-e).toNat
  ⟨(4 * m - gap) * scale, 4 * m * scale, (4 * m + 2) * scale, den, m % 2 = 0⟩

/-- Whether a decimal lies in the interval. -/
def Interval.holds (i : Interval) (x : Decimal) : Bool :=
  let (n, d) := x.ratio
  let left := n * i.den
  if i.closed then i.low * d ≤ left && left ≤ i.high * d
  else i.low * d < left && left < i.high * d

/-- The decimal with `count` digits that lies in the interval nearest to its number, if any does. -/
def Interval.decimal? (i : Interval) (magnitude : Int) (count : Nat) : Option Decimal :=
  let s := magnitude - count + 1
  let (n, d) := if 0 ≤ s then (i.value, i.den * tenTo s.toNat)
    else (i.value * tenTo (-s).toNat, i.den)
  let below : Decimal := ⟨n / d, s⟩
  let above : Decimal := ⟨n / d + 1, s⟩
  match i.holds below, i.holds above with
  | false, false => none
  | true, false => some below
  | false, true => some above
  | true, true =>
    let r := n % d
    some (if 2 * r < d then below else if d < 2 * r then above
      else if below.digits % 2 = 0 then below else above)

/-- The shortest decimal that reads back as the number with this mantissa and exponent. -/
def shortest (m : Nat) (e : Int) : Decimal :=
  let i := interval m e
  let magnitude := decimalExponent i.value i.den
  ((List.range 17).findSome? fun k => i.decimal? magnitude (k + 1)).getD ⟨m, 0⟩

/-- How a decimal is written: in positional notation if its exponent is at least `leastExponent` and
below `exponentLimit`, and otherwise with an exponent of at least `exponentWidth` digits. -/
structure DecimalForm where
  leastExponent : Int
  exponentLimit : Int
  exponentWidth : Nat

/-- Positional notation from `0.0001` up to below ten to the sixteenth; a decimal point always;
at least two digits in an exponent. -/
def plainForm : DecimalForm := ⟨-4, 16, 2⟩

/-- A decimal without trailing zeros in its digits. -/
def stripZeros : (fuel : Nat) → Decimal → Decimal
  | 0, x => x
  | fuel + 1, x =>
    if x.digits % 10 = 0 && x.digits != 0 then stripZeros fuel ⟨x.digits / 10, x.exponent + 1⟩ else x

/-- A natural in decimal digits, with zeros in front up to a width. -/
def padded (width n : Nat) : List Char :=
  let ds := Nat.toDigits 10 n
  List.replicate (width - ds.length) '0' ++ ds

/-- A decimal as text in a form. -/
def decimalText (style : DecimalForm) (x : Decimal) : List Char :=
  let x := stripZeros 400 x
  let ds := Nat.toDigits 10 x.digits
  let magnitude : Int := x.exponent + ds.length - 1
  if x.digits = 0 then ['0', '.', '0']
  else if magnitude < style.leastExponent || style.exponentLimit ≤ magnitude then
    let mark := if magnitude < 0 then '-' else '+'
    let fraction := if ds.length = 1 then [] else '.' :: ds.drop 1
    ds.take 1 ++ fraction ++ 'e' :: mark :: padded style.exponentWidth magnitude.natAbs
  else if magnitude < 0 then
    '0' :: '.' :: (List.replicate (magnitude.natAbs - 1) '0' ++ ds)
  else
    let whole := magnitude.toNat + 1
    if ds.length ≤ whole then ds ++ List.replicate (whole - ds.length) '0' ++ ['.', '0']
    else ds.take whole ++ '.' :: ds.drop whole

/-- The text of a number. -/
def text : Binary64 → String
  | .nan => "nan"
  | .infinite s => if s then "-inf" else "inf"
  | .finite s m e =>
    let body := if m = 0 then ['0', '.', '0'] else decimalText plainForm (shortest m e)
    String.ofList (if s then '-' :: body else body)

end Binary64

end Folio
