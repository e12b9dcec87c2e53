import Folio.Text.Cut
import Folio.Text.Digit

/-!
# Labels of host names in ASCII

A label that holds characters outside ASCII is written with its ASCII characters first and then, as
numbers of variable length in 36 digits, the steps that insert the other characters in the order of
their code points. How many digits a number takes depends on a bias that follows the sizes of the
numbers before it.
-/

set_option autoImplicit false
set_option relaxedAutoImplicit false

namespace Folio.Url

namespace Punycode

/-- The least value of the digit at a place that does not end a number. -/
def threshold (place bias : Nat) : Nat :=
  if 36 * (place + 1) ≤ bias + 1 then 1
  else if bias + 26 ≤ 36 * (place + 1) then 26
  else 36 * (place + 1) - bias

/-- A number divided by 35 until it is at most 455, and 36 for each division. -/
def damped (delta divisions : Nat) : Nat × Nat :=
  if 455 < delta then damped (delta / 35) (divisions + 36) else (delta, divisions)
termination_by delta
decreasing_by exact Nat.div_lt_self (by omega) (by omega)

/-- The bias after a number: `count` characters have been written or read with it. -/
def adapted (delta count : Nat) (first : Bool) : Nat :=
  let delta := if first then delta / 700 else delta / 2
  let (delta, divisions) := damped (delta + delta / count) 0
  divisions + 36 * delta / (delta + 38)

/-- The digit of a value below 36. -/
def digit (n : Nat) : Char := if n < 26 then Char.ofNat (0x61 + n) else Char.ofNat (22 + n)

/-- The value of a digit. -/
def digitValue? (c : Char) : Option Nat :=
  if 'a' ≤ c && c ≤ 'z' then some (c.toNat - 0x61)
  else if 'A' ≤ c && c ≤ 'Z' then some (c.toNat - 0x41)
  else if '0' ≤ c && c ≤ '9' then some (c.toNat - 22)
  else none

theorem threshold_pos (place bias : Nat) : 0 < threshold place bias := by
  unfold threshold; split <;> (try split) <;> omega

theorem threshold_le (place bias : Nat) : threshold place bias ≤ 26 := by
  unfold threshold; split <;> (try split) <;> omega

/-- The digits of a number from a place on. -/
def writeNumber (bias place n : Nat) : List Char :=
  let t := threshold place bias
  if n < t then [digit n]
  else digit (t + (n - t) % (36 - t)) :: writeNumber bias (place + 1) ((n - t) / (36 - t))
termination_by n
decreasing_by
  have h₁ := threshold_pos place bias
  have h₂ := threshold_le place bias
  exact Nat.lt_of_le_of_lt (Nat.div_le_self _ _) (by omega)

/-- What has been written so far: the digits, the steps since the last insertion, the number of
characters written, and the bias. -/
structure Writing where
  digits : List Char
  delta : Nat
  count : Nat
  bias : Nat
  first : Bool

/-- Goes past one character of the label, while the characters with code point `code` are being
inserted. -/
def visit (code : Nat) (w : Writing) (c : Char) : Writing :=
  if c.toNat < code then { w with delta := w.delta + 1 }
  else if c.toNat = code then
    ⟨w.digits ++ writeNumber w.bias 0 w.delta, 0, w.count + 1, adapted w.delta (w.count + 1) w.first,
      false⟩
  else w

/-- Inserts the characters with one code point after the other. -/
def insertAll (label : List Char) : (last : Nat) → List Nat → Writing → Writing
  | _, [], w => w
  | last, code :: codes, w =>
    let w := { w with delta := w.delta + (code - last) * (w.count + 1) }
    let w := label.foldl (visit code) w
    insertAll label (code + 1) codes { w with delta := w.delta + 1 }

/-- A label with characters outside ASCII in its ASCII form. -/
def encode (label : List Char) : List Char :=
  let basic := label.filter fun c => c.toNat < 0x80
  let codes := ((label.map Char.toNat).filter (0x80 ≤ ·)).mergeSort.eraseReps
  let w := insertAll label 0x80 codes ⟨[], 0, basic.length, 72, true⟩
  (if basic.isEmpty then [] else basic ++ ['-']) ++ w.digits

/-- The number that digits from a place on stand for, and the digits after it. -/
def readNumber? (bias : Nat) : (place weight : Nat) → List Char → Option (Nat × List Char)
  | _, _, [] => none
  | place, weight, c :: cs => do
    let d ← digitValue? c
    let t := threshold place bias
    if d < t then some (d * weight, cs)
    else
      let (n, rest) ← readNumber? bias (place + 1) (weight * (36 - t)) cs
      some (d * weight + n, rest)

/-- Inserts the characters that the numbers tell. `fuel` bounds how many they are. -/
def insertFrom : (fuel : Nat) → (text digits : List Char) → (code position bias : Nat) →
    (first : Bool) → Option (List Char)
  | _, text, [], _, _, _, _ => some text
  | 0, _, _ :: _, _, _, _, _ => none
  | fuel + 1, text, digits, code, position, bias, first => do
    let (delta, rest) ← readNumber? bias 0 1 digits
    let reached := position + delta
    let code := code + reached / (text.length + 1)
    let place := reached % (text.length + 1)
    if code.isValidChar then
      let text := text.take place ++ Char.ofNat code :: text.drop place
      insertFrom fuel text rest code (place + 1) (adapted delta text.length first) false
    else none

/-- The label that an ASCII form stands for. -/
def decode? (cs : List Char) : Option (List Char) :=
  if cs.all fun c => c.toNat < 0x80 then
    let behind := (cs.reverse.takeWhile (· ≠ '-')).reverse
    let digits := if cs.contains '-' then behind else cs
    insertFrom digits.length (cs.take (cs.length - behind.length - 1)) digits 0x80 0 72 true
  else none

end Punycode

/-- Whether a character separates the labels of a host name. -/
def isLabelSeparator (c : Char) : Bool :=
  c = '.' || c = '\u3002' || c = '\uff0e' || c = '\uff61'

/-- The labels of a host name. -/
def hostLabels (host : List Char) : List (List Char) :=
  splitOnChar '.' (host.map fun c => if isLabelSeparator c then '.' else c)

/-- A host name with every label in ASCII. -/
def asciiHost (host : List Char) : List Char :=
  joinWith '.' ((hostLabels host).map fun label =>
    if label.any fun c => 0x7e < c.toNat then "xn--".toList ++ Punycode.encode label else label)

/-- A host name with every label in the form for readers, if all ASCII forms can be read. -/
def shownHost? (host : List Char) : Option (List Char) :=
  ((hostLabels host).mapM fun label =>
    match afterStart? "xn--".toList label with
    | some digits => Punycode.decode? (digits.map Char.toLower)
    | none => some label).map (joinWith '.')

end Folio.Url
