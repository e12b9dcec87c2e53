import Folio.Markdown.Line
import Folio.Markdown.Tag
import Folio.Markdown.Token

/-!
# Blocks without blocks inside

A region is the part of a text that a block has: its lines as the block sees them, and the margin
that its content stands at. Horizontal rules, fenced and indented code, headings with number signs
and HTML are recognised in a region by the first of their lines; each function returns the tokens of
the block and the number of the first line behind it.
-/

set_option autoImplicit false
set_option relaxedAutoImplicit false

namespace Folio.Markdown

/-- The part of a text that a block has. Paragraphs go on up to the line `limit`; `margin` is the
column of the content and `listMargin` that of the list around it, or negative if there is none. -/
structure Region where
  lines : Array Line
  limit : Nat
  margin : Int := 0
  listMargin : Int := -1

/-- The tokens of a block, and the number of the first line behind it. -/
structure Leaf where
  tokens : List Token
  next : Nat

/-- Why a text cannot be read: there is no character at the end of the text to compare with. -/
inductive TextFault
  | endOfText
  deriving DecidableEq, Repr

/-- The text that reports a fault. -/
def TextFault.message : TextFault → String
  | endOfText => "string index out of range"

/-- The token of inline content that is still to be read. -/
def contentToken (text : List Char) : Token := { kind := .inline, content := String.ofList text }

namespace Region

/-- A line of a region; an empty one behind the last. -/
def line (r : Region) (i : Nat) : Line := r.lines.getD i default

/-- The lines from one number up to another. -/
def between (r : Region) (i j : Nat) : List Line := (r.lines.extract i j).toList

/-- Whether a line is indented like code. -/
def isCode (r : Region) (i : Nat) : Bool := 4 ≤ (r.line i).column - r.margin

/-- Whether a line stands left of the content. -/
def isOutside (r : Region) (i : Nat) : Bool := (r.line i).column < r.margin

/-! ### Horizontal rules -/

/-- Whether a text is a horizontal rule: three asterisks, hyphens or underscores or more of them,
with spaces and tabs in between. -/
def isRuleText : List Char → Bool
  | [] => false
  | c :: cs =>
    (c = '*' || c = '-' || c = '_') && (cs.all fun d => d = c || isIndent d) && 2 ≤ cs.count c

/-- Whether a line is a horizontal rule. -/
def startsRule (r : Region) (i : Nat) : Bool := !r.isCode i && isRuleText (r.line i).body

/-- A horizontal rule. -/
def rule? (r : Region) (i : Nat) : Option Leaf :=
  if r.startsRule i then some ⟨[{ kind := .rule }], i + 1⟩ else none

/-! ### Fenced code -/

/-- The mark and the length of the fence that a text starts with: three backticks or tildes or more.
Behind backticks there can be no other. -/
def fence? : List Char → Option (Char × Nat)
  | [] => none
  | c :: cs =>
    let length := 1 + (cs.takeWhile (· = c)).length
    if (c = '`' || c = '~') && 3 ≤ length && !(c = '`' && (cs.dropWhile (· = c)).contains '`') then
      some (c, length)
    else none

/-- Whether a text closes a fence. -/
def closesFence (mark : Char) (length : Nat) (cs : List Char) : Bool :=
  length ≤ (cs.takeWhile (· = mark)).length && (cs.dropWhile (· = mark)).all isIndent

/-- Whether a line starts fenced code. -/
def startsFence (r : Region) (i : Nat) : Bool := !r.isCode i && (fence? (r.line i).body).isSome

/-- The number of the line that ends fenced code, from a line on, and whether that line closes the
fence. The code also ends in front of a line left of the content, and in front of an empty line at
the very end of the text. -/
def fenceEnd (r : Region) (mark : Char) (length stop i : Nat) : Nat × Bool :=
  if i < stop then
    let l := r.line i
    if (!l.isEmpty && r.isOutside i) || (l.isEmpty && !l.ended) then (i, false)
    else if l.body.head? = some mark && !r.isCode i && closesFence mark length l.body then (i, true)
    else fenceEnd r mark length stop (i + 1)
  else (i, false)
termination_by stop - i

/-- Fenced code. -/
def fenced? (r : Region) (i stop : Nat) : Option Leaf :=
  if r.isCode i then none
  else
    (fence? (r.line i).body).map fun (mark, length) =>
      let (last, closed) := r.fenceEnd mark length stop (i + 1)
      let content := linesText (r.line i).column true (r.between (i + 1) last)
      ⟨[{ kind := .fence, content := String.ofList content }], if closed then last + 1 else last⟩

/-! ### Indented code -/

/-- The number of the line behind the last line that is indented like code, from a line on. Empty
lines in between belong to the code. -/
def codeEnd (r : Region) (stop last i : Nat) : Nat :=
  if i < stop then
    if (r.line i).isEmpty then codeEnd r stop last (i + 1)
    else if r.isCode i then codeEnd r stop (i + 1) (i + 1)
    else last
  else last
termination_by stop - i

/-- Indented code. -/
def indented? (r : Region) (i stop : Nat) : Option Leaf :=
  if r.isCode i then
    let last := r.codeEnd stop (i + 1) (i + 1)
    let content := linesText (4 + r.margin) false (r.between i last) ++ ['\n']
    some ⟨[{ kind := .indentedCode, content := String.ofList content }], last⟩
  else none

/-! ### Headings -/

/-- The tokens of a heading. -/
def headingTokens (level : Nat) (content : List Char) : List Token :=
  [{ kind := .headingOpen, tag := "h" ++ toString level }, contentToken (withoutGaps content),
    { kind := .headingClose }]

/-- A text without the spaces and tabs at its end. -/
def withoutIndentAtEnd (cs : List Char) : List Char := (cs.reverse.dropWhile isIndent).reverse

/-- The content of a heading without the number signs at its end, which a space or a tab sets apart. -/
def headingContent (cs : List Char) : List Char :=
  let cs := withoutIndentAtEnd cs
  let front := (cs.reverse.dropWhile (· = '#')).reverse
  if (front.getLast?.map isIndent).getD false then front else cs

/-- The level and the content of a heading: up to six number signs, and then a space or a tab. -/
def headingText? (cs : List Char) : Option (Nat × List Char) :=
  let level := (cs.takeWhile (· = '#')).length
  let rest := cs.dropWhile (· = '#')
  if 1 ≤ level && level ≤ 6 && (rest.head?.map isIndent).getD true then
    some (level, headingContent rest)
  else none

/-- Whether a line is a heading. -/
def startsHeading (r : Region) (i : Nat) : Bool :=
  !r.isCode i && (headingText? (r.line i).body).isSome

/-- A heading. -/
def heading? (r : Region) (i : Nat) : Option Leaf :=
  if r.isCode i then none
  else
    (headingText? (r.line i).body).map fun (level, content) =>
      ⟨headingTokens level content, i + 1⟩

/-! ### HTML -/

/-- Whether a line starts a block of HTML that may come right behind a line of a paragraph. -/
def startsHtml (r : Region) (i : Nat) : Bool :=
  !r.isCode i && ((htmlBlock? (r.line i).body).map (·.2)).getD false

/-- The number of the line behind a block of HTML, from a line on. A line without a body does not
leave the region, whatever its indentation. -/
def htmlEnd (r : Region) (e : HtmlEnd) (stop i : Nat) : Nat :=
  if i < stop then
    let l := r.line i
    if r.isOutside i && !l.isEmpty then i
    else if e.isReached l.body then if l.isEmpty then i else i + 1
    else htmlEnd r e stop (i + 1)
  else i
termination_by stop - i

/-- A block of HTML. Its lines are cut at the margin, and the text is at fault if the last of them
ends with the text before it gets there. -/
def html? (r : Region) (i stop : Nat) : Except TextFault (Option Leaf) :=
  if r.isCode i then .ok none
  else
    match htmlBlock? (r.line i).body with
    | none => .ok none
    | some (e, _) =>
      let next := if e.isReached (r.line i).body then i + 1 else r.htmlEnd e stop (i + 1)
      if (r.line (next - 1)).endsBefore r.margin then .error .endOfText
      else .ok (some ⟨[{ kind := .other "html_block" }], next⟩)

end Region

end Folio.Markdown
