import Folio.Number.Shortest
import Folio.Text.Blank
import Folio.Text.Digit

/-!
# Reading numbers

The spelling of a number: blanks around it, an optional sign, then `inf`, `infinity` or `nan` in any
letter case, or decimal digits of any script with at most one point and at most one exponent. An
underscore may stand between two digits. `readNumber?` is the number nearest to what is spelled.
-/

set_option autoImplicit false
set_option relaxedAutoImplicit false

namespace Folio

namespace Numeral

/-- The blanks that may stand around a number: the information separators do not count here. -/
def isMargin (c : Char) : Bool := isBlank c && !(0x1c ≤ c.toNat && c.toNat ≤ 0x1f)

/-- A list of characters without the margins at either end. -/
def withoutMargins (cs : List Char) : List Char :=
  ((cs.dropWhile isMargin).reverse.dropWhile isMargin).reverse

/-- A character with every decimal digit brought to ASCII. -/
def plainDigit (c : Char) : Char :=
  match decimalValue? c with
  | some v => Char.ofNat (0x30 + v)
  | none => c

/-- The characters without the underscores between digits; none if an underscore stands elsewhere. -/
def withoutUnderscores : (afterDigit : Bool) → List Char → Option (List Char)
  | _, [] => some []
  | afterDigit, '_' :: c :: rest =>
    if afterDigit && isAsciiDigit c then (withoutUnderscores true rest).map (c :: ·) else none
  | _, c :: rest =>
    if c = '_' then none else (withoutUnderscores (isAsciiDigit c) rest).map (c :: ·)

/-- A sign in front, and what follows it. -/
def sign : List Char → Bool × List Char
  | '-' :: rest => (true, rest)
  | '+' :: rest => (false, rest)
  | cs => (false, cs)

/-- The exponent part: nothing, or the letter e with digits after an optional sign. -/
def exponent? : List Char → Option Int
  | [] => some 0
  | c :: rest =>
    if c = 'e' || c = 'E' then
      let (negative, digits) := sign rest
      if digits.isEmpty || !digits.all isAsciiDigit then none
      else
        let n : Int := decimalNumber digits
        some (if negative then -n else n)
    else none

/-- The decimal spelled without a sign. -/
def decimal? (cs : List Char) : Option Decimal :=
  let whole := cs.takeWhile isAsciiDigit
  let rest := cs.dropWhile isAsciiDigit
  let (fraction, rest) := match rest with
    | '.' :: tail => (tail.takeWhile isAsciiDigit, tail.dropWhile isAsciiDigit)
    | _ => ([], rest)
  if whole.isEmpty && fraction.isEmpty then none
  else (exponent? rest).map fun e =>
    ⟨decimalNumber (whole ++ fraction), e - (fraction.length : Int)⟩

/-- The number spelled by characters that hold no margins and no underscores. -/
def plain? (cs : List Char) : Option Binary64 :=
  let (negative, rest) := sign cs
  let word := rest.map Char.toLower
  if word = "inf".toList || word = "infinity".toList then some (.infinite negative)
  else if word = "nan".toList then some .nan
  else (decimal? rest).map (Decimal.toBinary64 negative)

end Numeral

/-- The number that a text spells. -/
def readNumber? (s : String) : Option Binary64 := do
  let cs := Numeral.withoutMargins s.toList
  let cs ← Numeral.withoutUnderscores false (cs.map Numeral.plainDigit)
  Numeral.plain? cs

end Folio
