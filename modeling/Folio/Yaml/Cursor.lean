import Folio.Text.Range
import Folio.Text.Digit
import Folio.Yaml.Fault

/-!
# Places in a settings text

Where reading stands: the rest of the text, how many characters have been read, the line and the
column. The byte-order mark takes no column. Line ends have been brought to line feeds before; three
other characters end a line as well, and one of them counts as a line feed.

`Cursor.pieces` repeats a step that reads a piece of text. A step has to read something, which is
checked, so that the loop ends with the text.
-/

set_option autoImplicit false
set_option relaxedAutoImplicit false

namespace Folio.Yaml

/-- The code points that a text may hold. -/
def allowedRanges : Ranges :=
  [(0x9, 0xa), (0xd, 0xd), (0x20, 0x7e), (0x85, 0x85), (0xa0, 0xd7ff), (0xe000, 0xfffd),
   (0x10000, 0x10ffff)]

/-- Whether a character ends a line. -/
def isBreak (c : Char) : Bool := c = '\n' || c = '\x85' || c = '\u2028' || c = '\u2029'

/-- Whether a character is a space or a tab. -/
def isSpacing (c : Char) : Bool := c = ' ' || c = '\t'

/-- Whether a character separates words. -/
def isGap (c : Char) : Bool := isSpacing c || isBreak c

/-- Whether a text is over or goes on with a character of a class. -/
def endsWith (p : Char → Bool) : List Char → Bool
  | [] => true
  | c :: _ => p c

/-- Whether a character can be part of a name. -/
def isNameChar (c : Char) : Bool := isAsciiLetter c || isAsciiDigit c || c = '-' || c = '_'

/-- A place in a text. -/
structure Cursor where
  rest : List Char
  index : Nat := 0
  line : Nat := 0
  column : Nat := 0
  deriving Repr

namespace Cursor

/-- The place behind the next character. -/
def next (c : Cursor) : Cursor :=
  match c.rest with
  | [] => c
  | x :: rest =>
    if isBreak x then ⟨rest, c.index + 1, c.line + 1, 0⟩
    else if x = '\ufeff' then ⟨rest, c.index + 1, c.line, c.column⟩
    else ⟨rest, c.index + 1, c.line, c.column + 1⟩

/-- The place behind some characters. -/
def skip (c : Cursor) (count : Nat) : Cursor := count.repeat next c

/-- The place behind the next characters of a class. -/
def skipWhile (c : Cursor) (p : Char → Bool) : Cursor := c.skip (c.rest.takeWhile p).length

/-- Whether the next character is one of a class. -/
def sees (c : Cursor) (p : Char → Bool) : Bool := (c.rest.head?.map p).getD false

/-- Whether the line ends here. -/
def endsLine (c : Cursor) : Bool := endsWith isBreak c.rest

/-- The line break here, if there is one, as it is kept, and the place behind it. -/
def lineBreak (c : Cursor) : List Char × Cursor :=
  match c.rest with
  | [] => ([], c)
  | x :: _ => if isBreak x then ([if x = '\x85' then '\n' else x], c.next) else ([], c)

/-- Whether a mark stands here at the start of a line: three characters of a kind, as a word. -/
def isAtMark (c : Cursor) (mark : Char) : Bool :=
  c.column = 0 && [mark, mark, mark].isPrefixOf c.rest && endsWith isGap (c.rest.drop 3)

/-- Whether a document starts or ends here. -/
def isAtDocumentMark (c : Cursor) : Bool := c.isAtMark '-' || c.isAtMark '.'

/-- The place behind the rest of the line, if nothing but spaces and a comment is left of it. -/
def skipLineEnd (c : Cursor) : Except Fault Cursor :=
  let c := c.skipWhile (· = ' ')
  let c := if c.sees (· = '#') then c.skipWhile (!isBreak ·) else c
  if c.endsLine then .ok c.lineBreak.2 else .error .malformed

/-- The pieces that a step reads one after the other until it reads none, and the place where it
reads none. -/
def pieces (step : Cursor → Except Fault (Option (List Char × Cursor))) (c : Cursor) :
    Except Fault (List Char × Cursor) :=
  match step c with
  | .error fault => .error fault
  | .ok none => .ok ([], c)
  | .ok (some (piece, behind)) =>
    if _shorter : behind.rest.length < c.rest.length then do
      let (more, last) ← pieces step behind
      .ok (piece ++ more, last)
    else .error .malformed
termination_by c.rest.length

end Cursor

end Folio.Yaml
