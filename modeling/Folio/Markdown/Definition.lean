import Folio.Markdown.Span
import Folio.Markdown.Table

/-!
# Definitions of references

A definition gives a label a URL and perhaps a title: the label in brackets, a colon, the destination
and the title, with blanks and at most the ends of lines in between. It may take several lines, as
many as a paragraph could, and it is one only if nothing else stands on its last line.
-/

set_option autoImplicit false
set_option relaxedAutoImplicit false

namespace Folio.Markdown

/-- What is left of the lines of a definition: the rest of the current line, the lines behind it, and
how many lines have been begun. -/
structure Remainder where
  rest : List Char
  more : List (List Char)
  begun : Nat

namespace Remainder

/-- What is left behind spaces, tabs and the ends of lines. -/
def skipGap (rest : List Char) (more : List (List Char)) (begun : Nat) : Remainder :=
  match rest, more with
  | '\n' :: _, line :: lines => skipGap line lines (begun + 1)
  | c :: cs, more =>
    if isIndent c || c = '\n' then skipGap cs more begun else ⟨c :: cs, more, begun⟩
  | [], more => ⟨[], more, begun⟩
termination_by (more.length, rest.length)

end Remainder

/-- The label whose opening bracket has been read, the latest character in front in `label`, and what
is left behind its closing bracket. In the label there can be no other opening bracket unless a
backslash hides it. -/
def definedLabel? (label rest : List Char) (more : List (List Char)) (begun : Nat) :
    Option (List Char × Remainder) :=
  match rest, more with
  | ']' :: cs, more => some (label.reverse, ⟨cs, more, begun⟩)
  | '[' :: _, _ => none
  | ['\n'], line :: lines => definedLabel? ('\n' :: label) line lines (begun + 1)
  | ['\\', '\n'], line :: lines => definedLabel? ('\n' :: '\\' :: label) line lines (begun + 1)
  | '\\' :: c :: cs, more => definedLabel? (c :: '\\' :: label) cs more begun
  | c :: cs, more => definedLabel? (c :: label) cs more begun
  | [], _ => none
termination_by (more.length, rest.length)

/-- The characters of a title that may go on over several lines up to its closing mark, the latest in
front in `title`, and what is left behind them. -/
def definedTitle? (closing : Char) (title rest : List Char) (more : List (List Char))
    (begun : Nat) : Option (List Char × Remainder) :=
  match rest, more with
  | [], line :: lines => definedTitle? closing title line lines (begun + 1)
  | [], [] => none
  | '\\' :: c :: cs, more => definedTitle? closing (c :: '\\' :: title) cs more begun
  | c :: cs, more =>
    if c = closing then some (title.reverse, ⟨cs, more, begun⟩)
    else if c = '(' && closing = ')' then none
    else definedTitle? closing (c :: title) cs more begun
termination_by (more.length, rest.length)

/-- Whether nothing else stands on the current line. -/
def Remainder.isAtLineEnd (r : Remainder) : Bool :=
  let rest := r.rest.dropWhile isIndent
  rest.isEmpty || rest.head? = some '\n'

/-- The title behind a destination, and what is left behind it. A title that ends on the line it
starts on has to be set apart from the destination by a gap. -/
def titleBehind? (r : Remainder) : Option (List Char × Remainder) :=
  if r.rest.isEmpty then none
  else
    let gap := Remainder.skipGap r.rest r.more r.begun
    match gap.rest with
    | [] => none
    | c :: cs => do
      let closing ← titleClosing? c
      let (title, behind) ← definedTitle? closing [] cs gap.more gap.begun
      if r.rest.head? = some c && behind.begun = r.begun then none
      else some (unescaped title, behind)

/-- A definition in some lines: the key of its label, the reference, and how many lines it takes. A
title that does not end its line is no title, unless it is empty: then there is no definition. -/
def definitionText? (first : List Char) (more : List (List Char)) :
    Option (String × Reference × Nat) := do
  let inside ← afterStart? ['['] first
  let (label, behind) ← definedLabel? [] inside more 1
  let start ← afterStart? [':'] behind.rest
  let gap := Remainder.skipGap start behind.more behind.begun
  let (written, rest) ← destination? gap.rest
  let url := destinationUrl written
  let key := labelKey label
  if !isAllowedUrl url || key = "" then none
  else
    let behind : Remainder := { gap with rest }
    let defined := fun (title : List Char) (r : Remainder) =>
      if r.isAtLineEnd then some (key, ⟨String.ofList url, String.ofList title⟩, r.begun) else none
    match titleBehind? behind with
    | some (title, end') =>
      if end'.isAtLineEnd || title.isEmpty then defined title end' else defined [] behind
    | none => defined [] behind

namespace Region

/-- The text of a line with its line feed. -/
def lineText (r : Region) (i : Nat) : List Char :=
  (r.line i).body ++ (if (r.line i).ended then ['\n'] else [])

/-- The lines that a definition may go on over, from a line on. -/
def definitionLines (r : Region) (i : Nat) : List (List Char) :=
  if i < r.limit then
    if (r.line i).isEmpty then []
    else if r.isCode i || (r.line i).column < 0 || !r.endsDefinition i r.limit then
      r.lineText i :: definitionLines r (i + 1)
    else []
  else []
termination_by r.limit - i

/-- The definition of a reference at a line: the key of its label, the reference, and the number of
the line behind it. -/
def definition? (r : Region) (i : Nat) : Option (String × Reference × Nat) :=
  if r.isCode i || (r.line i).body.head? ≠ some '[' then none
  else
    (definitionText? (r.lineText i) (r.definitionLines (i + 1))).map fun (key, reference, lines) =>
      (key, reference, i + lines)

end Region

end Folio.Markdown
