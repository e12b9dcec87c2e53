import Folio.Text.Utf8
import Folio.Yaml.Token

/-!
# Anchors, tags and directives

The tokens that say something about a value or about the whole text. A tag is written as a suffix
behind a handle, or as a whole between angle brackets; bytes in it can be percent-encoded.
-/

set_option autoImplicit false
set_option relaxedAutoImplicit false

namespace Folio.Yaml

/-- The bytes of percent-encoded characters at the start of a text, and what follows them. -/
def encodedBytes : List Char → Except Fault (List UInt8 × List Char)
  | '%' :: a :: b :: rest =>
    match hexValue? a, hexValue? b with
    | some x, some y => do
      let (bytes, rest) ← encodedBytes rest
      .ok (UInt8.ofNat (x * 16 + y) :: bytes, rest)
    | _, _ => .error .malformed
  | '%' :: _ => .error .malformed
  | cs => .ok ([], cs)

/-- Whether a character stands for itself in a tag. -/
def isTagChar (c : Char) : Bool :=
  isAsciiLetter c || isAsciiDigit c || "-;/?:@&=+$,_.!~*'()[]".toList.contains c

namespace Cursor

/-- The name at a place, which must not be empty, and the place behind it. -/
def name (c : Cursor) : Except Fault (String × Cursor) :=
  let name := c.rest.takeWhile isNameChar
  if name.isEmpty then .error .malformed else .ok (String.ofList name, c.skip name.length)

/-- The suffix of a tag at a place, and the place behind it. -/
def tagSuffix (c : Cursor) : Except Fault (String × Cursor) := do
  let (text, behind) ← c.pieces fun c =>
    if c.sees isTagChar then
      let run := c.rest.takeWhile isTagChar
      .ok (some (run, c.skip run.length))
    else if c.sees (· = '%') then do
      let (bytes, rest) ← encodedBytes c.rest
      let chars ← (readUtf8 bytes).mapError fun _ => .malformed
      .ok (some (chars, c.skip (c.rest.length - rest.length)))
    else .ok none
  if behind.rest.length = c.rest.length then .error .malformed
  else .ok (String.ofList text, behind)

/-- The handle of a tag at a place: an exclamation mark, or two around a name that may be empty. -/
def tagHandle (c : Cursor) : Except Fault (String × Cursor) :=
  match c.rest with
  | '!' :: rest =>
    if rest.head? = some ' ' then .ok ("!", c.next)
    else
      let name := rest.takeWhile isNameChar
      if (rest.drop name.length).head? = some '!' then
        .ok (String.ofList ('!' :: name ++ ['!']), c.skip (name.length + 2))
      else .error .malformed
  | _ => .error .malformed

/-- The tag at a place, and the place behind it. A tag that is but an exclamation mark is a suffix
without a handle. -/
def tag (c : Cursor) : Except Fault (TagText × Cursor) := do
  let first := c.rest.drop 1
  let (text, c) ←
    if first.head? = some '<' then do
      let (suffix, c) ← (c.skip 2).tagSuffix
      if c.sees (· = '>') then .ok ((⟨none, suffix⟩ : TagText), c.next) else .error .malformed
    else if endsWith isGap first then .ok (⟨none, "!"⟩, c.next)
    else do
      let word := first.takeWhile fun x => !(x = ' ' || isBreak x)
      let (handle, c) ← if word.contains '!' then c.tagHandle else .ok ("!", c.next)
      let (suffix, c) ← c.tagSuffix
      .ok (⟨some handle, suffix⟩, c)
  if endsWith (fun x => x = ' ' || isBreak x) c.rest then .ok (text, c) else .error .malformed

/-- The name of an anchor or an alias, read from its mark, and the place behind it. -/
def anchorName (c : Cursor) : Except Fault (String × Cursor) := do
  let (name, c) ← c.next.name
  if endsWith (fun x => isGap x || "?:,]\x7d%@`".toList.contains x) c.rest then .ok (name, c)
  else .error .malformed

/-- The number at a place, and the place behind it. -/
def number (c : Cursor) : Except Fault (Nat × Cursor) :=
  let digits := c.rest.takeWhile isAsciiDigit
  if digits.isEmpty then .error .malformed
  else if Value.digitLimit < digits.length then .error (.tooManyDigits digits.length)
  else .ok (decimalNumber digits, c.skip digits.length)

/-- Whether a word of a directive ends at a place. -/
def endsDirectiveWord (c : Cursor) : Bool := endsWith (fun x => x = ' ' || isBreak x) c.rest

/-- The version that a directive gives: two numbers with a point between them. -/
def version (c : Cursor) : Except Fault (Directive × Cursor) := do
  let (major, c) ← (c.skipWhile (· = ' ')).number
  if !c.sees (· = '.') then .error .malformed
  else
    let (minor, c) ← c.next.number
    if c.endsDirectiveWord then .ok (.version major minor, c) else .error .malformed

/-- What a directive lets a handle stand for. -/
def handleMeaning (c : Cursor) : Except Fault (Directive × Cursor) := do
  let (handle, c) ← (c.skipWhile (· = ' ')).tagHandle
  if !c.sees (· = ' ') then .error .malformed
  else
    let (start, c) ← (c.skipWhile (· = ' ')).tagSuffix
    if c.endsDirectiveWord then .ok (.handle handle start, c) else .error .malformed

/-- A directive, read from its mark, and the place of the line behind it. -/
def directive (c : Cursor) : Except Fault (Directive × Cursor) := do
  let (name, c) ← c.next.name
  if !c.endsDirectiveWord then .error .malformed
  else
    let (content, c) ←
      if name = "YAML" then c.version
      else if name = "TAG" then c.handleMeaning
      else .ok (.reserved, c.skipWhile (!isBreak ·))
    .ok (content, ← c.skipLineEnd)

end Cursor

end Folio.Yaml
