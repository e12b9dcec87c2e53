import Folio.Yaml.Scalar.Quoted

/-!
# Plain scalars

A scalar without quotes ends before a colon that ends a word, before a comment, and between brackets
before the marks of collections. It goes on over lines that are indented far enough, with the line
breaks folded as in quoted scalars.
-/

set_option autoImplicit false
set_option relaxedAutoImplicit false

namespace Folio.Yaml.Plain

/-- Whether a character is a mark of collections between brackets. -/
def isBracketMark (c : Char) : Bool := [',', '[', ']', '{', '}'].contains c

/-- The characters up to the next gap or the end of the scalar. -/
def word (bracketed : Bool) : List Char → List Char
  | [] => []
  | c :: rest =>
    if isGap c then []
    else if c = ':' && endsWith (fun d => isGap d || (bracketed && isBracketMark d)) rest then []
    else if bracketed && (isBracketMark c || c = '?') then []
    else c :: word bracketed rest

/-- A gap between the words of a scalar: its text, the place behind it, and whether it holds a line
break. A gap without text ends the scalar. -/
structure Gap where
  text : List Char
  behind : Cursor
  broken : Bool

/-- The line breaks from a place on, and the place behind them, which is the start of a line only if
a document starts or ends there. -/
def breaks (c : Cursor) : Except Fault (List Char × Cursor) := do
  let (lineBreaks, c) ← c.pieces fun c =>
    if c.isAtDocumentMark then .ok none
    else
      let c := c.skipWhile (· = ' ')
      if c.sees isBreak then .ok (some c.lineBreak) else .ok none
  .ok (lineBreaks, c)

/-- The gap at a place. -/
def gap (c : Cursor) : Except Fault Gap :=
  let spaces := c.rest.takeWhile (· = ' ')
  let c := c.skip spaces.length
  if c.sees isBreak then do
    let (first, c) := c.lineBreak
    let (others, c) ← breaks c
    if c.isAtDocumentMark then .ok ⟨[], c, true⟩
    else .ok ⟨Quoted.folded first others, c.skipWhile (· = ' '), true⟩
  else .ok ⟨spaces, c, false⟩

/-- The text of a plain scalar whose lines have to be indented to a column, the place behind the
scalar and the gap that follows it, and whether that gap holds a line break. -/
def read (bracketed : Bool) (indent : Nat) (c : Cursor) : Except Fault Gap :=
  let start := word bracketed c.rest
  match gap (c.skip start.length) with
  | .error fault => .error fault
  | .ok g =>
    if g.text.isEmpty || g.behind.sees (· = '#') || (!bracketed && decide (g.behind.column < indent))
        || (word bracketed g.behind.rest).isEmpty then
      .ok { g with text := start }
    else if _shorter : g.behind.rest.length < c.rest.length then do
      let more ← read bracketed indent g.behind
      .ok { more with text := start ++ g.text ++ more.text }
    else .error .malformed
termination_by c.rest.length

end Folio.Yaml.Plain
