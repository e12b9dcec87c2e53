import Folio.Markdown.Character
import Folio.Text.Blank
import Folio.Text.Cut

/-!
# Lines

A text is cut into lines, and each line into the part that the blocks around it have read, its
indentation, and its body. The same line looks different to a block and to the blocks around that
block, so reading a line as a part of a quote gives another line (`Line.quoted?`). A line with a
negative column continues a paragraph and cannot start a block (`Line.lazy`).
-/

set_option autoImplicit false
set_option relaxedAutoImplicit false

namespace Folio.Markdown

/-- A line as a block sees it: what stands in front of the body, the body, the column of the body
counted from the start of the block, how many columns in front of that start count for the position
of tabs, and whether a line feed ends the line. -/
structure Line where
  lead : List Char
  body : List Char
  column : Int
  base : Int
  ended : Bool
  deriving Inhabited, Repr

namespace Line

/-- The column behind a character, which counts for one column unless it is a tab. -/
def advance (base : Int) (column : Int) (c : Char) : Int :=
  if c = '\t' then column + (4 - (column + base) % 4) else column + 1

/-- A line of a text. -/
def ofText (cs : List Char) (ended : Bool) : Line :=
  let lead := cs.takeWhile isIndent
  ⟨lead, cs.dropWhile isIndent, lead.foldl (advance 0) 0, 0, ended⟩

/-- Whether a line has no body. -/
def isEmpty (l : Line) : Bool := l.body.isEmpty

/-- Whether a line has no body and no line feed, and less indentation than some width. -/
def endsBefore (width : Int) (l : Line) : Bool :=
  l.isEmpty && !l.ended && l.lead.foldl (advance l.base) 0 < width

/-- A line that continues a paragraph. -/
def lazy (l : Line) : Line := { l with column := -1 }

/-- A line of a quote as the blocks in the quote see it; none if the line does not start with the
mark of a quote. One space behind the mark belongs to it. A tab behind the mark counts for one
column less unless it is one column wide. -/
def quoted? (l : Line) : Option Line :=
  match l.body with
  | '>' :: rest =>
    let start := l.column + 1
    let (start, rest, base, spaced) := match rest with
      | ' ' :: rest => (start + 1, rest, l.base, true)
      | '\t' :: rest' =>
        if (l.base + start) % 4 = 3 then (start + 1, rest', l.base, true)
        else (start, '\t' :: rest', l.base + 1, true)
      | _ => (start, rest, l.base, false)
    let lead := rest.takeWhile isIndent
    let column := lead.foldl (advance base) start
    some ⟨lead, rest.dropWhile isIndent, column - start, l.column + 1 + (if spaced then 1 else 0),
      l.ended⟩
  | _ => none

/-- What follows indentation of a width is cut from the lead of a line: the columns of a tab that
reach beyond the width are written as spaces. -/
def cutIndent (base width : Int) : (column : Int) → List Char → List Char
  | column, [] => List.replicate (column - width).toNat ' '
  | column, c :: cs =>
    if column < width then cutIndent base width (advance base column c) cs
    else List.replicate (column - width).toNat ' ' ++ c :: cs

/-- The content of a line without its indentation up to a width. -/
def content (l : Line) (width : Int) : List Char := cutIndent l.base width 0 l.lead ++ l.body

end Line

/-- The lines of a text, as the outermost blocks see them. The last line counts only if it has a
body or a line feed. -/
def linesOf (cs : List Char) : List Line :=
  let pieces := splitOnChar '\n' cs
  pieces.dropLast.map (Line.ofText · true) ++
    (pieces.getLast?.toList.filter fun last => !last.all isIndent).map (Line.ofText · false)

/-- The contents of lines as one text, with a line feed between two lines, and behind the last one
if it has a line feed and that is asked for. -/
def linesText (width : Int) (withLast : Bool) : List Line → List Char
  | [] => []
  | [l] => l.content width ++ (if withLast && l.ended then ['\n'] else [])
  | l :: ls => l.content width ++ '\n' :: linesText width withLast ls

/-- A text with every line ending brought to a line feed, and a replacement character for each NUL. -/
def normalizedText : List Char → List Char
  | [] => []
  | '\r' :: '\n' :: cs => '\n' :: normalizedText cs
  | '\r' :: cs => '\n' :: normalizedText cs
  | '\x00' :: cs => '\ufffd' :: normalizedText cs
  | c :: cs => c :: normalizedText cs

end Folio.Markdown
