import Folio.Text.Cut
import Folio.Yaml.Fault

/-!
# Kinds of values

What a value is said to be by its tag, or by its text if it is a plain scalar without a tag. The
forms of numbers and moments are those of version 1.1 of the notation: underscores in numbers, octal
numbers with a zero in front, and numbers of base sixty whose digits are separated by colons.

`momentParts?` reads the parts of a moment; a plain scalar counts as a moment if its day has all its
digits or a time follows.
-/

set_option autoImplicit false
set_option relaxedAutoImplicit false

namespace Folio.Yaml

/-- A kind of value. A merge and a default are keys with a meaning of their own. -/
inductive Kind
  | null
  | bool
  | int
  | float
  | binary
  | moment
  | orderedMap
  | pairs
  | set
  | text
  | sequence
  | mapping
  | merge
  | default
  | unknown
  deriving DecidableEq, Repr

namespace Kind

/-- The kinds that have tags, by the names of the tags. -/
def named : List (String × Kind) :=
  [("null", null), ("bool", bool), ("int", int), ("float", float), ("binary", binary),
   ("timestamp", moment), ("omap", orderedMap), ("pairs", pairs), ("set", set), ("str", text),
   ("seq", sequence), ("map", mapping), ("merge", merge), ("value", default)]

/-- What the tags of the named kinds start with. -/
def tagStart : String := "tag:yaml.org,2002:"

/-- The kind that a tag names. -/
def ofTag (tag : String) : Kind :=
  match afterStart? tagStart.toList tag.toList with
  | some name => (named.lookup (String.ofList name)).getD unknown
  | none => unknown

/-! ### Numbers -/

/-- What follows a sign, which may be missing. -/
def unsigned : List Char → List Char
  | '+' :: rest => rest
  | '-' :: rest => rest
  | cs => cs

/-- Whether a character is a digit or an underscore. -/
def isDigitOrBar (c : Char) : Bool := isAsciiDigit c || c = '_'

/-- Whether a text starts with a digit and goes on with digits and underscores. -/
def isDigits (cs : List Char) : Bool :=
  (cs.head?.map isAsciiDigit).getD false && cs.all isDigitOrBar

/-- Whether a text is nothing, or an exponent with a sign. -/
def isExponent : List Char → Bool
  | [] => true
  | e :: sign :: digits =>
    (e = 'e' || e = 'E') && (sign = '+' || sign = '-') && !digits.isEmpty && digits.all isAsciiDigit
  | _ => false

/-- Whether a text is a digit of base sixty. -/
def isBaseSixtyDigit : List Char → Bool
  | [d] => isAsciiDigit d
  | [tens, d] => '0' ≤ tens && tens ≤ '5' && isAsciiDigit d
  | _ => false

/-- Whether a text has digits of base sixty, at least two, the first of which can be larger. -/
def isBaseSixty (cs : List Char) : Bool :=
  match splitOnChar ':' cs with
  | first :: second :: others => isDigits first && (second :: others).all isBaseSixtyDigit
  | _ => false

/-- Whether a text without a sign is a number with digits in front of its point. -/
def isPointed (cs : List Char) : Bool :=
  let (whole, fraction) := cutAt (· = '.') cs
  match fraction with
  | [] => false
  | _ :: fraction =>
    (isDigits whole && isExponent (fraction.dropWhile isDigitOrBar)) ||
      (isBaseSixty whole && fraction.all isDigitOrBar)

/-- Whether a text is a point with digits behind it. -/
def isFraction : List Char → Bool
  | '.' :: rest =>
    isDigits (rest.takeWhile isDigitOrBar) && isExponent (rest.dropWhile isDigitOrBar)
  | _ => false

/-- Whether a text is one of some words. -/
def isOneOf (words : List String) (cs : List Char) : Bool := words.any fun word => word.toList = cs

/-- Whether a text has the form of a number with a point, or names infinity or not-a-number. -/
def isFloat (cs : List Char) : Bool :=
  isPointed (unsigned cs) || isFraction cs || isOneOf [".inf", ".Inf", ".INF"] (unsigned cs) ||
    isOneOf [".nan", ".NaN", ".NAN"] cs

/-- Whether a text is not empty and has digits below a bound, and underscores. -/
def isDigitsBelow (bound : Nat) (cs : List Char) : Bool :=
  !cs.isEmpty && cs.all fun c => c = '_' || (hexValue? c).any (decide <| · < bound)

/-- Whether a text has the form of an integer. -/
def isInt (cs : List Char) : Bool :=
  match unsigned cs with
  | ['0'] => true
  | '0' :: 'b' :: digits => isDigitsBelow 2 digits
  | '0' :: 'x' :: digits => isDigitsBelow 16 digits
  | '0' :: digits => isDigitsBelow 8 digits
  | digits => isDigits digits || isBaseSixty digits

/-! ### Moments -/

/-- The offset of a moment: universal time itself, or a sign, hours and minutes. -/
structure OffsetParts where
  negative : Bool
  hours : List Char
  minutes : List Char

/-- The time of a moment; the fraction of the second and the offset may be missing. -/
structure TimeParts where
  hour : List Char
  minute : List Char
  second : List Char
  fraction : List Char
  offset : Option OffsetParts

/-- The digits of the parts of a moment. -/
structure MomentParts where
  year : List Char
  month : List Char
  day : List Char
  time : Option TimeParts

/-- The digits at the start of a text, at least and at most so many, and what follows them. -/
def digits? (least most : Nat) (cs : List Char) : Option (List Char × List Char) :=
  let found := (cs.takeWhile isAsciiDigit).take most
  if least ≤ found.length then some (found, cs.drop found.length) else none

/-- What follows a character. -/
def after? (c : Char) : List Char → Option (List Char)
  | x :: rest => if x = c then some rest else none
  | [] => none

/-- The offset at the end of a moment. -/
def offsetParts? (cs : List Char) : Option (Option OffsetParts) :=
  match cs.dropWhile fun c => c = ' ' || c = '\t' with
  | [] => if cs.isEmpty then some none else none
  | ['Z'] => some (some ⟨false, ['0'], []⟩)
  | sign :: rest =>
    if sign = '+' || sign = '-' then do
      let (hours, rest) ← digits? 1 2 rest
      match rest with
      | [] => return some ⟨sign = '-', hours, []⟩
      | rest =>
        let (minutes, rest) ← digits? 2 2 (← after? ':' rest)
        if rest.isEmpty then return some ⟨sign = '-', hours, minutes⟩ else none
    else none

/-- The time at the end of a moment. -/
def timeParts? (cs : List Char) : Option TimeParts := do
  let spaces := cs.takeWhile fun c => c = ' ' || c = '\t'
  let rest ←
    match cs.drop spaces.length with
    | c :: rest =>
      if spaces.isEmpty then if c = 'T' || c = 't' then some rest else none else some (c :: rest)
    | [] => none
  let (hour, rest) ← digits? 1 2 rest
  let (minute, rest) ← digits? 2 2 (← after? ':' rest)
  let (second, rest) ← digits? 2 2 (← after? ':' rest)
  let (fraction, rest) := match rest with
    | '.' :: rest => (rest.takeWhile isAsciiDigit, rest.dropWhile isAsciiDigit)
    | _ => ([], rest)
  return ⟨hour, minute, second, fraction, ← offsetParts? rest⟩

/-- The parts of the moment that a text spells. -/
def momentParts? (cs : List Char) : Option MomentParts := do
  let (year, rest) ← digits? 4 4 cs
  let (month, rest) ← digits? 1 2 (← after? '-' rest)
  let (day, rest) ← digits? 1 2 (← after? '-' rest)
  match rest with
  | [] => return ⟨year, month, day, none⟩
  | rest => return ⟨year, month, day, some (← timeParts? rest)⟩

/-- Whether a text has the form of a moment that needs no tag. -/
def isMoment (cs : List Char) : Bool :=
  match momentParts? cs with
  | some parts => parts.time.isSome || (parts.month.length = 2 && parts.day.length = 2)
  | none => false

/-! ### Plain scalars -/

/-- The truth values, in lower case. -/
def truths : List (String × Bool) :=
  [("yes", true), ("no", false), ("true", true), ("false", false), ("on", true), ("off", false)]

/-- The spellings of the truth values: in lower case, with a capital, and in upper case. -/
def truthSpellings : List String :=
  truths.flatMap fun word => [word.1, word.1.capitalize, word.1.map Char.toUpper]

/-- A text without one line feed at its end. -/
def withoutLineFeed (cs : List Char) : List Char :=
  if cs.getLast? = some '\n' then cs.dropLast else cs

/-- The kind of a plain scalar by its text. A line feed at the end of the text does not count, unless
nothing else is there. -/
def ofText (s : String) : Kind :=
  let cs := withoutLineFeed s.toList
  if cs.isEmpty then if s.isEmpty then null else text
  else if isOneOf truthSpellings cs then bool
  else if isFloat cs then float
  else if isInt cs then int
  else if isOneOf ["<<"] cs then merge
  else if isOneOf ["~", "null", "Null", "NULL"] cs then null
  else if isMoment cs then moment
  else if isOneOf ["="] cs then default
  else if isOneOf ["!", "&", "*"] cs then unknown
  else text

end Kind

end Folio.Yaml
