import Folio.Number.Numeral
import Folio.Text.Case
import Folio.Yaml.Kind

/-!
# Values of scalars

The value that the text of a scalar has as a value of its kind, or why it has none. A plain scalar of
a kind that its text shows nearly always has a value; a scalar with a tag may hold any text.
-/

set_option autoImplicit false
set_option relaxedAutoImplicit false

namespace Folio.Yaml

/-! ### Numbers -/

/-- The letter that marks numbers of a base. -/
def baseLetter? (base : Nat) : Option Char := [(2, 'b'), (8, 'o'), (16, 'x')].lookup base

/-- Digits without the mark of their base, which may be missing. -/
def withoutBaseMark (base : Nat) : List Char → List Char
  | '0' :: letter :: digits =>
    if baseLetter? base = some letter.toLower then digits else '0' :: letter :: digits
  | cs => cs

/-- The integer that a text spells in a base. -/
def readInteger (base : Nat) (cs : List Char) : Except Fault Int :=
  let (negative, rest) := Numeral.sign (Numeral.withoutMargins (cs.map Numeral.plainDigit))
  let digits := withoutBaseMark base rest
  let isDigit := fun c => (hexValue? c).any (decide <| · < base)
  let count := (digits.takeWhile isDigit).length
  if base = 10 && decide (Value.digitLimit < count) then .error (.tooManyDigits count)
  else if digits.isEmpty || !digits.all isDigit then .error (.noInteger base (String.ofList cs))
  else
    let n : Int := digits.foldl (fun n c => n * base + (hexValue? c).getD 0) 0
    .ok (if negative then -n else n)

/-- An integer of base sixty. -/
def baseSixtyInteger (cs : List Char) : Except Fault Int := do
  let digits ← (splitOnChar ':' cs).mapM (readInteger 10)
  .ok (digits.foldl (fun n d => n * 60 + d) 0)

/-- The integer that a scalar spells. -/
def integerOf (text : List Char) : Except Fault Int :=
  let cs := text.filter (· ≠ '_')
  if cs.isEmpty then .error .noDigits
  else do
    let n ←
      match Kind.unsigned cs with
      | [] => .error .noDigits
      | ['0'] => .ok 0
      | '0' :: 'b' :: digits => readInteger 2 digits
      | '0' :: 'x' :: digits => readInteger 16 digits
      | '0' :: digits => readInteger 8 ('0' :: digits)
      | digits => if digits.contains ':' then baseSixtyInteger digits else readInteger 10 digits
    .ok (if cs.head? = some '-' then -n else n)

/-- The number that a text spells, or the fault. -/
def readFloat (cs : List Char) : Except Fault Binary64 :=
  match readNumber? (String.ofList cs) with
  | some x => .ok x
  | none => .error (.noNumber (String.ofList cs))

/-- The sum of digits of base sixty, the least first, each times a power of sixty. -/
def baseSixtySum (sum : Binary64) (power : Nat) : List Binary64 → Except Fault Binary64
  | [] => .ok sum
  | digit :: digits =>
    match Binary64.ofInt? power with
    | none => .error .hugeFactor
    | some factor => baseSixtySum (sum.add (digit.mul factor)) (power * 60) digits

/-- The number with a point that a scalar spells. -/
def floatOf (text : List Char) : Except Fault Binary64 :=
  let cs := (text.filter (· ≠ '_')).map lowerChar
  if cs.isEmpty then .error .noDigits
  else
    let body := Kind.unsigned cs
    if body = ".nan".toList then .ok .nan
    else do
      let x ←
        if body = ".inf".toList then .ok (.infinite false)
        else if body.contains ':' then do
          let digits ← (splitOnChar ':' body).mapM readFloat
          baseSixtySum (.zero false) 1 digits.reverse
        else readFloat body
      .ok (if cs.head? = some '-' then x.neg else x)

/-! ### Bytes -/

/-- The value of a digit of base sixty-four. -/
def baseSixtyFourDigit? (c : Char) : Option Nat :=
  if 'A' ≤ c && c ≤ 'Z' then some (c.toNat - 0x41)
  else if 'a' ≤ c && c ≤ 'z' then some (c.toNat - 0x61 + 26)
  else if isAsciiDigit c then some (c.toNat - 0x30 + 52)
  else if c = '+' then some 62
  else if c = '/' then some 63
  else none

/-- The bytes that digits of base sixty-four spell, behind some digits of an unfinished group of four
and the equals signs behind these. Other characters do not count. -/
def baseSixtyFour (group : List Nat) (signs : Nat) : List Char → Except Fault (List UInt8)
  | [] => if group.isEmpty then .ok [] else .error .malformed
  | c :: cs =>
    if c = '=' then
      if 2 ≤ group.length && 4 ≤ group.length + signs + 1 then .ok []
      else baseSixtyFour group (if 2 ≤ group.length then signs + 1 else signs) cs
    else
      match baseSixtyFourDigit? c, group with
      | none, _ => baseSixtyFour group signs cs
      | some d, [] => baseSixtyFour [d] 0 cs
      | some d, [a] => (baseSixtyFour [a, d] 0 cs).map (UInt8.ofNat (a * 4 + d / 16) :: ·)
      | some d, [a, b] =>
        (baseSixtyFour [a, b, d] 0 cs).map (UInt8.ofNat (b % 16 * 16 + d / 4) :: ·)
      | some d, _ :: _ :: b :: _ =>
        (baseSixtyFour [] 0 cs).map (UInt8.ofNat (b % 4 * 64 + d) :: ·)

/-- The bytes that a scalar spells, which is ASCII. -/
def bytesOf (text : List Char) : Except Fault (List UInt8) :=
  if text.all fun c => c.toNat < 0x80 then baseSixtyFour [] 0 text else .error .malformed

/-! ### Moments -/

/-- Whether a year has a day more. -/
def isLeapYear (year : Nat) : Bool := year % 4 = 0 && (year % 100 ≠ 0 || year % 400 = 0)

/-- How many days a month has. -/
def daysOfMonth (year month : Nat) : Nat :=
  if month = 2 then if isLeapYear year then 29 else 28
  else if [4, 6, 9, 11].contains month then 30
  else 31

/-- The day with a year, a month and a day of the month. -/
def dayOf (year month day : Nat) : Except Fault Day :=
  if year = 0 then .error (.outOfRange (.year year))
  else if month = 0 || 12 < month then .error (.outOfRange .month)
  else if day = 0 || daysOfMonth year month < day then .error (.outOfRange .day)
  else .ok ⟨year, month, day⟩

/-- An offset from universal time in minutes, which is less than a day. -/
def offsetOf (parts : Kind.OffsetParts) : Except Fault Int :=
  let minutes : Int := decimalNumber parts.hours * 60 + decimalNumber parts.minutes
  if 1440 ≤ minutes then .error (.longOffset (if parts.negative then -minutes else minutes))
  else .ok (if parts.negative then -minutes else minutes)

/-- The day or the moment that a scalar spells. -/
def momentOf (text : List Char) : Except Fault Value :=
  match Kind.momentParts? (Kind.withoutLineFeed text) with
  | none => .error .noMoment
  | some parts => do
    let day := dayOf (decimalNumber parts.year) (decimalNumber parts.month) (decimalNumber parts.day)
    match parts.time with
    | none => .ok (.date (← day))
    | some time =>
      let offset ← time.offset.mapM offsetOf
      let day ← day
      let hour := decimalNumber time.hour
      let minute := decimalNumber time.minute
      let second := decimalNumber time.second
      let fraction := time.fraction.take 6
      let microsecond := decimalNumber fraction * tenTo (6 - fraction.length)
      if 23 < hour then .error (.outOfRange .hour)
      else if 59 < minute then .error (.outOfRange .minute)
      else if 59 < second then .error (.outOfRange .second)
      else .ok (.moment ⟨day, hour, minute, second, microsecond, offset⟩)

/-- The truth value that a scalar spells in any letter case. -/
def truthOf (s : String) : Except Fault Bool :=
  match Kind.truths.lookup (lowered s) with
  | some b => .ok b
  | none => .error (.noTruth (lowered s))

/-- The value of a text as a value of a kind. Kinds of collections have no values that are texts. -/
def scalarValue (kind : Kind) (s : String) : Except Fault Value :=
  match kind with
  | .null => .ok .null
  | .bool => (truthOf s).map .bool
  | .int => (integerOf s.toList).map .int
  | .float => (floatOf s.toList).map .float
  | .binary => (bytesOf s.toList).map .bytes
  | .moment => momentOf s.toList
  | .text => .ok (.text s)
  | _ => .error .malformed

end Folio.Yaml
