import Folio.Number.Power
import Folio.Text.Digit

/-!
# Percent-encoding

A URL writes the bytes of a character as percent signs with two hexadecimal digits. Encoding leaves
the letters, the digits, the marks of URLs and the percent-encoded bytes that are there already.
Decoding leaves the bytes that have a meaning of their own in a URL, and puts a replacement
character for each byte that belongs to no character.
-/

set_option autoImplicit false
set_option relaxedAutoImplicit false

namespace Folio.Url

/-- The percent-encoded form of a byte. -/
def percentByte (b : Nat) : List Char := '%' :: (hexDigits 2 b).map Char.toUpper

/-- Whether encoding leaves a character as it is. -/
def isKept (c : Char) : Bool :=
  isAsciiLetter c || isAsciiDigit c || ";/?:@&=+$,-_.!~*'()#".toList.contains c

/-- A text with all characters percent-encoded that cannot stand in a URL. -/
def percentEncoded : List Char → List Char
  | [] => []
  | '%' :: a :: b :: rest =>
    if isHexDigit a && isHexDigit b then '%' :: a :: b :: percentEncoded rest
    else percentByte 0x25 ++ percentEncoded (a :: b :: rest)
  | c :: rest =>
    (if isKept c then [c] else (String.utf8EncodeChar c).flatMap fun b => percentByte b.toNat) ++
      percentEncoded rest

/-- The percent-encoded bytes at the start of a text, and what follows them. -/
def percentRun : List Char → List Nat × List Char
  | '%' :: a :: b :: rest =>
    match hexValue? a, hexValue? b with
    | some x, some y =>
      let (bytes, after) := percentRun rest
      ((x * 16 + y) :: bytes, after)
    | _, _ => ([], '%' :: a :: b :: rest)
  | cs => ([], cs)

/-- How many bytes of a character follow a first byte. -/
def continuationCount (first : Nat) : Nat :=
  if first / 0x20 = 6 then 1 else if first / 0x10 = 0xe then 2 else if first / 8 = 0x1e then 3 else 0

/-- Whether a byte continues a character. -/
def isContinuation (b : Nat) : Bool := b / 0x40 = 2

/-- The least code point that needs so many continuation bytes. -/
def leastCode (continuations : Nat) : Nat :=
  if continuations = 1 then 0x80 else if continuations = 2 then 0x800 else 0x10000

/-- The character that a first byte and its continuations make, or a replacement character for each
of them if the code point needs fewer bytes, is a surrogate, or is too large. -/
def decodedChar (first : Nat) (continuations : List Nat) : List Char :=
  let n := continuations.length
  let code := continuations.foldl (fun v b => v * 0x40 + b % 0x40) (first % twoTo (6 - n))
  if leastCode n ≤ code && code ≤ 0x10ffff && !(0xd800 ≤ code && code ≤ 0xdfff) then
    [Char.ofNat code]
  else List.replicate (n + 1) '\ufffd'

/-- A byte of ASCII as it stands in a decoded text. -/
def decodedByte (b : Nat) : List Char :=
  if ";/?:@&=+$,#%".toList.contains (Char.ofNat b) then percentByte b else [Char.ofNat b]

/-- The characters that bytes stand for. -/
def decodedBytes : List Nat → List Char
  | [] => []
  | a :: rest =>
    let continuations := rest.take (continuationCount a)
    if a < 0x80 then decodedByte a ++ decodedBytes rest
    else if continuationCount a ≠ 0 && continuations.length = continuationCount a &&
        continuations.all isContinuation then
      decodedChar a continuations ++ decodedBytes (rest.drop (continuationCount a))
    else '\ufffd' :: decodedBytes rest
termination_by bytes => bytes.length
decreasing_by all_goals simp only [List.length_cons, List.length_drop]; omega

/-- A text with its percent-encoded characters decoded. -/
def percentDecoded : List Char → List Char
  | [] => []
  | c :: rest =>
    let run := percentRun (c :: rest)
    if run.2.length ≤ rest.length then decodedBytes run.1 ++ percentDecoded run.2
    else c :: percentDecoded rest
termination_by cs => cs.length
decreasing_by
  · exact Nat.lt_succ_of_le ‹_›
  · exact Nat.lt_succ_self _

end Folio.Url
