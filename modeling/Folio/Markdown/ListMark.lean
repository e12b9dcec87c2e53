import Folio.Markdown.Leaf

/-!
# Marks of list items

A list item starts with a bullet, or with a number of at most nine digits and a point or a
parenthesis; then comes a space, a tab or the end of the line. The items of one list have the same
bullet, or the same character behind their numbers.
-/

set_option autoImplicit false
set_option relaxedAutoImplicit false

namespace Folio.Markdown

/-- The mark of a list item: its number, if it has one, the character that all items of the list
have, and how many characters the mark takes. -/
structure ListMark where
  number : Option Nat
  sign : Char
  width : Nat
  deriving DecidableEq, Repr

namespace ListMark

/-- Whether a mark can end in front of a text. -/
def canEndBefore (cs : List Char) : Bool := (cs.head?.map isIndent).getD true

/-- The mark with a number that a text starts with. -/
def numbered? (cs : List Char) : Option ListMark :=
  let digits := cs.takeWhile isAsciiDigit
  match cs.dropWhile isAsciiDigit with
  | c :: rest =>
    if !digits.isEmpty && digits.length ≤ 9 && (c = '.' || c = ')') && canEndBefore rest then
      some ⟨some (decimalNumber digits), c, digits.length + 1⟩
    else none
  | [] => none

/-- The bullet that a text starts with. -/
def bullet? : List Char → Option ListMark
  | [] => none
  | c :: rest =>
    if (c = '*' || c = '-' || c = '+') && canEndBefore rest then some ⟨none, c, 1⟩ else none

/-- The mark of a list item that a text starts with. -/
def ofText? (cs : List Char) : Option ListMark := (numbered? cs).or (bullet? cs)

end ListMark

namespace Region

/-- The mark of the list that starts at a line. A list that comes right behind a line of a paragraph
must start with an item that is not empty, and with the number one if it has numbers. -/
def listMark? (r : Region) (behindParagraph : Bool) (i : Nat) : Option ListMark :=
  let l := r.line i
  let tooDeep := 0 ≤ r.listMargin && 4 ≤ l.column - r.listMargin && l.column < r.margin
  if r.isCode i || tooDeep then none
  else
    (ListMark.ofText? l.body).filter fun mark =>
      !(behindParagraph && r.margin ≤ l.column) ||
        (mark.number.all (· = 1) && !(l.body.drop mark.width).all isIndent)

/-- Whether a list starts at a line. -/
def startsList (r : Region) (behindParagraph : Bool) (i : Nat) : Bool :=
  (r.listMark? behindParagraph i).isSome

end Region

end Folio.Markdown
