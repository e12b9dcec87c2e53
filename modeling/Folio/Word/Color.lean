import Folio.Failure
import Folio.Number.Numeral

/-!
# Colours

A colour is written as three hexadecimal numbers of two digits. Reading one takes the first two
characters, the next two, and all the rest as a hexadecimal number each; spaces, a sign, the mark
`0x` and underscores between digits are allowed in each, so that texts of other lengths can be
colours as well. The colours that the settings admit are exactly six hexadecimal digits
(`isHexColor`), for which none of this matters.
-/

set_option autoImplicit false
set_option relaxedAutoImplicit false

namespace Folio.Word

/-- Whether a text is exactly six hexadecimal digits. -/
def isHexColor (s : String) : Bool := s.toList.length = 6 && s.toList.all isHexDigit

/-- The digits of a hexadecimal number with the underscores between them taken out; none if a
character is no digit, an underscore does not stand between digits, or there are no digits. -/
def hexDigitsOf? : List Char → Option (List Char)
  | [] => none
  | [c] => if isHexDigit c then some [c] else none
  | c :: '_' :: rest =>
    if isHexDigit c then (hexDigitsOf? rest).map (c :: ·) else none
  | c :: d :: rest => if isHexDigit c then (hexDigitsOf? (d :: rest)).map (c :: ·) else none

/-- A hexadecimal number without its mark `0x`, which an underscore may follow. -/
def withoutHexMark : List Char → List Char
  | '0' :: x :: rest =>
    if x = 'x' || x = 'X' then
      match rest with
      | '_' :: digits => digits
      | _ => rest
    else '0' :: x :: rest
  | cs => cs

/-- The hexadecimal number that a text spells. -/
def readHex? (cs : List Char) : Option Int :=
  let (negative, rest) := Numeral.sign (Numeral.withoutMargins (cs.map Numeral.plainDigit))
  (hexDigitsOf? (withoutHexMark rest)).map fun digits =>
    if negative then -(hexNumber digits : Int) else hexNumber digits

/-- The hexadecimal number that a part of a colour spells, or the failure. -/
def colorPart (cs : List Char) : Except Failure Int :=
  match readHex? cs with
  | some n => .ok n
  | none => .error (.badHexNumber (String.ofList cs))

/-- Two upper-case hexadecimal digits. -/
def upperHex (n : Nat) : List Char := (hexDigits 2 n).map Char.toUpper

/-- A colour as it is written, or why it is none. -/
def readColor (s : String) : Except Failure String := do
  let cs := s.toList
  let red ← colorPart (cs.take 2)
  let green ← colorPart ((cs.drop 2).take 2)
  let blue ← colorPart (cs.drop 4)
  if [red, green, blue].all fun n => decide (0 ≤ n) && decide (n ≤ 255) then
    .ok (String.ofList ([red, green, blue].flatMap fun n => upperHex n.toNat))
  else .error .badColorPart

end Folio.Word
