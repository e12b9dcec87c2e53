import Folio.Yaml.Cursor

/-!
# Quoted scalars

A scalar between apostrophes or quotation marks may run over several lines: a line break with the
spaces around it is read as one space, and further line breaks behind it stand for themselves. An
apostrophe between apostrophes is written twice. Between quotation marks a backslash starts an
escape.
-/

set_option autoImplicit false
set_option relaxedAutoImplicit false

namespace Folio.Yaml.Quoted

/-- The line breaks before the next text, and the place where it starts. No document may start or
end between them. -/
def breaks (c : Cursor) : Except Fault (List Char × Cursor) := do
  let (lineBreaks, c) ← c.pieces fun c =>
    if c.isAtDocumentMark then .error .malformed
    else
      let c := c.skipWhile isSpacing
      if c.sees isBreak then .ok (some c.lineBreak) else .ok none
  .ok (lineBreaks, c.skipWhile isSpacing)

/-- A line break is one space if nothing but text follows it, and gives way to the line breaks that
follow otherwise; a break that is no line feed is kept. -/
def folded (first others : List Char) : List Char :=
  if first ≠ ['\n'] then first ++ others else if others.isEmpty then [' '] else others

/-- The text of the gap at a place: spaces in a line as they are, folded line breaks otherwise. -/
def gap (c : Cursor) : Except Fault (List Char × Cursor) :=
  let spacing := c.rest.takeWhile isSpacing
  let c := c.skip spacing.length
  if c.rest.isEmpty then .error .malformed
  else if c.sees isBreak then do
    let (first, c) := c.lineBreak
    let (others, c) ← breaks c
    .ok (folded first others, c)
  else .ok (spacing, c)

/-- The character that a letter behind a backslash stands for. -/
def escaped? (letter : Char) : Option Char :=
  [('0', '\x00'), ('a', '\x07'), ('b', '\x08'), ('t', '\t'), ('\t', '\t'), ('n', '\n'), ('v', '\x0b'),
   ('f', '\x0c'), ('r', '\r'), ('e', '\x1b'), (' ', ' '), ('"', '"'), ('\\', '\\'), ('/', '/'),
   ('N', '\x85'), ('_', '\xa0'), ('L', '\u2028'), ('P', '\u2029')].lookup letter

/-- How many hexadecimal digits follow a letter that introduces a code point. -/
def codeWidth? (letter : Char) : Option Nat := [('x', 2), ('u', 4), ('U', 8)].lookup letter

/-- The character of a code point; a surrogate has a replacement character. -/
def codeChar (code : Nat) : Except Fault Char :=
  if 0x10ffff < code then .error (.beyondUnicode code)
  else .ok (if code.isValidChar then Char.ofNat code else '\ufffd')

/-- What an escape stands for, read from the place behind its backslash. -/
def escape (c : Cursor) : Except Fault (List Char × Cursor) :=
  match c.rest with
  | [] => .error .malformed
  | letter :: rest =>
    match escaped? letter, codeWidth? letter with
    | some x, _ => .ok ([x], c.next)
    | none, some width =>
      let digits := rest.take width
      if digits.length = width && digits.all isHexDigit then do
        let x ← codeChar (hexNumber digits)
        .ok ([x], c.skip (width + 1))
      else .error .malformed
    | none, none => if isBreak letter then breaks c.lineBreak.2 else .error .malformed

/-- Whether a character stands for itself wherever it occurs in a quoted scalar. -/
def isOrdinary (c : Char) : Bool := !isGap c && c != '\'' && c != '"' && c != '\\'

/-- The next piece of a scalar between quotes, unless the scalar ends here. -/
def piece (quote : Char) (c : Cursor) : Except Fault (Option (List Char × Cursor)) :=
  match c.rest with
  | [] => .error .malformed
  | x :: rest =>
    if x = quote then
      if quote = '\'' && rest.head? = some '\'' then .ok (some (['\''], c.skip 2)) else .ok none
    else if isGap x then (gap c).map some
    else if x = '\\' && quote = '"' then (escape c.next).map some
    else if isOrdinary x then
      let run := c.rest.takeWhile isOrdinary
      .ok (some (run, c.skip run.length))
    else .ok (some ([x], c.next))

/-- The text of a quoted scalar, read from its opening quote, and the place behind it. -/
def read (quote : Char) (c : Cursor) : Except Fault (List Char × Cursor) := do
  let (text, c) ← c.next.pieces (piece quote)
  .ok (text, c.next)

end Folio.Yaml.Quoted
