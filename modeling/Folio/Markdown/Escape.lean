import Folio.Markdown.Character
import Folio.Markdown.NamedCharacter

/-!
# Escapes and character references

A backslash in front of punctuation of ASCII stands for that punctuation. A reference stands for a
character by its name or by its number, and ends with a semicolon. `unescaped` resolves both; what
is no escape and no reference stays.
-/

set_option autoImplicit false
set_option relaxedAutoImplicit false

namespace Folio.Markdown

/-- Whether a number stands for a character that a text may refer to: no surrogate, no code point
set aside for internal use, no control other than tab, line feed, form feed and carriage return. -/
def isReferable (n : Nat) : Bool :=
  !(0xd800 ≤ n && n ≤ 0xdfff) && !(0xfdd0 ≤ n && n ≤ 0xfdef) && n % 0x10000 < 0xfffe &&
    8 < n && n ≠ 0xb && !(0xe ≤ n && n ≤ 0x1f) && !(0x7f ≤ n && n ≤ 0x9f) && n ≤ 0x10ffff

/-- The number in a numeric reference, without the number sign and the semicolon: decimal digits, or
an x and hexadecimal digits, at most so many of them. -/
def referenceNumber? (mostDecimal mostHex : Nat) : List Char → Option Nat
  | [] => none
  | c :: cs =>
    if c = 'x' || c = 'X' then
      if !cs.isEmpty && cs.length ≤ mostHex && cs.all isHexDigit then some (hexNumber cs) else none
    else if (c :: cs).length ≤ mostDecimal && (c :: cs).all isAsciiDigit then
      some (decimalNumber (c :: cs))
    else none

/-- The inside of a character reference after its ampersand, up to the semicolon, and what follows
it: a letter or a number sign and up to 31 letters and digits. -/
def referenceBody? (cs : List Char) : Option (List Char × List Char) :=
  match cs with
  | [] => none
  | c :: rest =>
    let word := rest.takeWhile isAsciiWord
    if (isAsciiLetter c || c = '#') && !word.isEmpty && word.length ≤ 31 then
      match rest.dropWhile isAsciiWord with
      | ';' :: after => some (c :: word, after)
      | _ => none
    else none

/-- What the inside of a character reference stands for. -/
def referenceValue? (body : List Char) : Option (List Char) :=
  match namedCharacter? (String.ofList body) with
  | some s => some s.toList
  | none =>
    match body with
    | '#' :: digits =>
      match referenceNumber? 8 8 digits with
      | some n => if isReferable n then some [Char.ofNat n] else none
      | none => none
    | _ => none

/-- A text with its escapes and references resolved. -/
def unescaped : List Char → List Char
  | [] => []
  | '\\' :: c :: rest =>
    if isAsciiPunctuation c then c :: unescaped rest else '\\' :: unescaped (c :: rest)
  | '&' :: rest =>
    match (referenceBody? rest).bind fun r => (referenceValue? r.1).map fun v => (v, r.1.length) with
    | some (value, length) => value ++ unescaped (rest.drop (length + 1))
    | none => '&' :: unescaped rest
  | c :: rest => c :: unescaped rest
termination_by cs => cs.length
decreasing_by all_goals simp only [List.length_cons, List.length_drop]; omega

end Folio.Markdown
