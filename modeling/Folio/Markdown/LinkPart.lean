import Folio.Markdown.Character
import Folio.Markdown.Destination
import Folio.Markdown.Escape

/-!
# Destinations and titles

The destination of a link stands in angle brackets, or is a run of characters without blanks and with
balanced parentheses. A title stands in quotation marks, in apostrophes or in parentheses. Each
function returns what it has read and the characters that follow.
-/

set_option autoImplicit false
set_option relaxedAutoImplicit false

namespace Folio.Markdown

/-- The characters up to a closing angle bracket, and what follows it. A line feed or an opening
bracket in between is not allowed, and a backslash hides the character after it. -/
def bracketedText? : List Char → Option (List Char × List Char)
  | [] => none
  | '>' :: rest => some ([], rest)
  | '\n' :: _ => none
  | '<' :: _ => none
  | '\\' :: c :: rest => (bracketedText? rest).map fun r => ('\\' :: c :: r.1, r.2)
  | c :: rest => (bracketedText? rest).map fun r => (c :: r.1, r.2)

/-- The characters of a destination without brackets, where so many parentheses are open, and what
follows it. More than 32 open parentheses, and one left open, are not allowed. -/
def bareText? : (opened : Nat) → List Char → Option (List Char × List Char)
  | opened, [] => if opened = 0 then some ([], []) else none
  | opened, '\\' :: c :: rest =>
    if c = ' ' then if opened = 0 then some ([], '\\' :: c :: rest) else none
    else (bareText? opened rest).map fun r => ('\\' :: c :: r.1, r.2)
  | opened, c :: rest =>
    if c.toNat ≤ 0x20 || c.toNat = 0x7f || (c = ')' && opened = 0) then
      if opened = 0 then some ([], c :: rest) else none
    else if c = '(' then
      if 32 ≤ opened then none
      else (bareText? (opened + 1) rest).map fun r => (c :: r.1, r.2)
    else if c = ')' then (bareText? (opened - 1) rest).map fun r => (c :: r.1, r.2)
    else (bareText? opened rest).map fun r => (c :: r.1, r.2)

/-- A destination, with its escapes resolved. -/
def destination? : List Char → Option (List Char × List Char)
  | '<' :: rest => (bracketedText? rest).map fun r => (unescaped r.1, r.2)
  | cs =>
    match bareText? 0 cs with
    | some (text, rest) => if text.isEmpty then none else some (unescaped text, rest)
    | none => none

/-- The characters up to a closing mark, and what follows it. In parentheses no other may be opened,
and a backslash hides the character after it. -/
def titleText? (closing : Char) : List Char → Option (List Char × List Char)
  | [] => none
  | '\\' :: c :: rest => (titleText? closing rest).map fun r => ('\\' :: c :: r.1, r.2)
  | c :: rest =>
    if c = closing then some ([], rest)
    else if c = '(' && closing = ')' then none
    else (titleText? closing rest).map fun r => (c :: r.1, r.2)

/-- The mark that closes a title, if a character opens one. -/
def titleClosing? (c : Char) : Option Char :=
  if c = '"' || c = '\'' then some c else if c = '(' then some ')' else none

/-- A title, with its escapes resolved. -/
def title? : List Char → Option (List Char × List Char)
  | [] => none
  | c :: rest =>
    match titleClosing? c with
    | some closing => (titleText? closing rest).map fun r => (unescaped r.1, r.2)
    | none => none

end Folio.Markdown
