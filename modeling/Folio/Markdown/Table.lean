import Folio.Markdown.ListMark

/-!
# Tables, and what ends a paragraph

A table starts with a row of heads and a row of hyphens that has as many columns. It takes rows up to
an empty line or a line that starts another block, and every row gets as many cells as there are
heads. A table may follow a paragraph without an empty line in between; so may most other blocks, and
which of them end a paragraph, a definition, a quote or a list is collected here.
-/

set_option autoImplicit false
set_option relaxedAutoImplicit false

namespace Folio.Markdown

/-- The cells of a row, cut at the bars that no backslash hides; a hidden bar loses its backslash.
`cell` is the cell so far, the latest character in front. -/
def rowCells (cell : List Char) : List Char → List (List Char)
  | [] => [cell.reverse]
  | '|' :: cs =>
    if cell.head? = some '\\' then rowCells ('|' :: cell.tail) cs
    else cell.reverse :: rowCells [] cs
  | c :: cs => rowCells (c :: cell) cs

/-- The cells of a row without the empty ones outside the outer bars. -/
def innerCells (row : List Char) : List (List Char) :=
  let cells := rowCells [] row
  let cells := if cells.head? = some [] then cells.tail else cells
  if cells.getLast? = some [] then cells.dropLast else cells

/-- Whether a text is the cell of a column in the row of hyphens. -/
def isHyphenCell (cs : List Char) : Bool :=
  let cs := if cs.head? = some ':' then cs.tail else cs
  let cs := if cs.getLast? = some ':' then cs.dropLast else cs
  !cs.isEmpty && cs.all (· = '-')

/-- The number of columns that a row of hyphens makes. Empty cells count only as outer ones. -/
def hyphenColumns? (row : List Char) : Option Nat :=
  let isPart := fun c => c = '|' || c = '-' || c = ':'
  match row with
  | a :: b :: rest =>
    if isPart a && (isPart b || (isIndent b && a ≠ '-')) &&
        rest.all fun c => isPart c || isIndent c then
      let cells := (splitOnChar '|' row).map withoutGaps
      let inner := cells.drop 1 |>.dropLast
      if inner.all (!·.isEmpty) && cells.all fun cell => cell.isEmpty || isHyphenCell cell then
        some (cells.countP (!·.isEmpty))
      else none
    else none
  | _ => none

namespace Region

/-- The heads of the table that starts at a line. -/
def tableHeads? (r : Region) (i stop : Nat) : Option (List (List Char)) :=
  if stop < i + 2 || r.isOutside (i + 1) || r.isCode (i + 1) || r.isCode i then none
  else
    let row := withoutGaps (r.line i).body
    let heads := innerCells row
    match hyphenColumns? (r.line (i + 1)).body with
    | some columns =>
      if row.contains '|' && heads.length = columns && columns ≠ 0 then some heads else none
    | none => none

/-- Whether a table starts at a line. -/
def startsTable (r : Region) (i stop : Nat) : Bool := (r.tableHeads? i stop).isSome

/-- Whether a quote starts at a line. -/
def startsQuote (r : Region) (i : Nat) : Bool := !r.isCode i && (r.line i).body.head? = some '>'

/-- Whether a line ends a paragraph. -/
def endsParagraph (r : Region) (i stop : Nat) : Bool :=
  r.startsTable i stop || r.startsFence i || r.startsQuote i || r.startsRule i ||
    r.startsList true i || r.startsHtml i || r.startsHeading i

/-- Whether a line ends the definition of a reference. -/
def endsDefinition (r : Region) (i stop : Nat) : Bool :=
  r.startsTable i stop || r.startsFence i || r.startsQuote i || r.startsRule i ||
    r.startsList false i || r.startsHtml i || r.startsHeading i

/-- Whether a line ends a quote whose lines need not be marked, or a table. -/
def endsQuote (r : Region) (i : Nat) : Bool :=
  r.startsFence i || r.startsQuote i || r.startsRule i || r.startsList false i || r.startsHtml i ||
    r.startsHeading i

/-- Whether a line ends a list. -/
def endsList (r : Region) (i : Nat) : Bool :=
  r.startsFence i || r.startsQuote i || r.startsRule i

/-- The most cells that rows may lack. -/
def mostMissingCells : Int := 0x10000

/-- The tokens of a row. -/
def rowTokens (opening closing : TokenKind) (cells : List (List Char)) : List Token :=
  { kind := .rowOpen } ::
    cells.flatMap (fun cell =>
      [{ kind := opening }, contentToken (withoutGaps cell), { kind := closing }]) ++
    [{ kind := .rowClose }]

/-- The rows of a table from a line on, and the number of the line behind them. `missing` is the
number of cells that the rows so far lacked. -/
def tableRows (r : Region) (columns stop i : Nat) (missing : Int) :
    Except TextFault (List (List (List Char)) × Nat) :=
  if i < stop then
    let l := r.line i
    let row := withoutGaps l.body
    if r.isOutside i then .ok ([], i)
    else if l.isEmpty && !l.ended && !r.isCode i then .error .endOfText
    else if r.endsQuote i || row.isEmpty || r.isCode i then .ok ([], i)
    else
      let cells := innerCells row
      let missing := missing + ((columns : Int) - cells.length)
      if mostMissingCells < missing then .ok ([], i)
      else
        (tableRows r columns stop (i + 1) missing).map fun (rows, next) =>
          ((cells ++ List.replicate (columns - cells.length) []).take columns :: rows, next)
  else .ok ([], i)
termination_by stop - i

/-- A table. -/
def table? (r : Region) (i stop : Nat) : Except TextFault (Option Leaf) :=
  match r.tableHeads? i stop with
  | none => .ok none
  | some heads =>
    (r.tableRows heads.length stop (i + 2) 0).map fun (rows, next) =>
      let head := { kind := .headOpen } :: rowTokens .headerCellOpen .headerCellClose heads ++
        [{ kind := .headClose }]
      let body := if rows.isEmpty then []
        else { kind := .bodyOpen } :: rows.flatMap (rowTokens .cellOpen .cellClose) ++
          [{ kind := .bodyClose }]
      some ⟨{ kind := .tableOpen } :: head ++ body ++ [{ kind := .tableClose }], next⟩

end Region

end Folio.Markdown
