import Folio.Render.Inline
import Folio.Word.Table

/-!
# Blocks in the body of a document

How each kind of block becomes paragraphs and tables. A list item starts a paragraph with its mark;
its first block joins that paragraph if it is a paragraph, and the others follow one level deeper.
-/

set_option autoImplicit false
set_option relaxedAutoImplicit false

namespace Folio

open Word

/-- Writes a paragraph: its format first, then its content. -/
def writeParagraph (format : Change Paragraph) (content : Step ParagraphItem Unit) :
    Step Element Unit := fun s =>
  match format Paragraph.empty with
  | (p, some e) => ⟨[.paragraph p], s, .error e⟩
  | (p, none) => content.gather (fun items => .paragraph (p.append items)) s

/-- The format of a paragraph that nothing is said about. -/
def noFormat : Change Paragraph := .always id

/-! ### Lists -/

/-- The indentation of list items per level, and how far their first lines hang out, in units. -/
def listIndent : Binary64 := .ofRatio false 1 2

/-- How far the first line of a list item hangs out, in units. -/
def listHanging : Int := 228600

/-- The indentation of the items of a list at a level, in units. -/
def indentOfLevel (level : Int) : Except Failure Int :=
  match Binary64.ofInt? level with
  | none => .error .hugeInteger
  | some n =>
    match emuOfInches? (listIndent.mul n) with
    | some emu => .ok emu
    | none => .error .infiniteLength

/-- The format of the first paragraph of a list item. -/
def hangingIndent (level : Int) : Change Paragraph :=
  match indentOfLevel level with
  | .error e => .stop e
  | .ok emu => Change.all [Paragraph.setLeftIndent emu, Paragraph.setHanging listHanging]

/-- The mark of a list item. -/
def itemMark (ordered : Bool) (number : Nat) : String :=
  if ordered then toString number ++ ". " else "• "

/-- Writes the first paragraph of a list item. -/
def writeItemStart (env : Surroundings) (level : Int) (mark : String) (content : List Inline) :
    Step Element Unit :=
  writeParagraph (hangingIndent level)
    ((inParagraph (writeText env mark .plain)).bind fun _ => writeItems env content .plain)

/-- A step one level deeper in lists. -/
def deeper (step : Step Element Unit) : Step Element Unit := fun s =>
  let o := step { s with listDepth := s.listDepth + 1 }
  ⟨o.written, { o.state with listDepth := o.state.listDepth - 1 }, o.result⟩

/-! ### Code, quotes and rules -/

/-- Six points and none, in units. -/
def codeMargin (outer : Bool) : Int := if outer then 6 * emuPerPoint else 0

/-- Writes one line of a code block. -/
def writeCodeLine (env : Surroundings) (first last : Bool) (line : String) : Step Element Unit :=
  writeParagraph
    (Change.all [
      Paragraph.addShade env.settings.codeShade,
      Paragraph.setSpacing (codeMargin first) (codeMargin last)])
    (if line = "" then Step.done () else inParagraph (writeText env line .ofCodeLine))

/-- Writes the lines of a code block; `first` tells whether the next one is the first. -/
def writeCodeLines (env : Surroundings) (first : Bool) : List String → Step Element Unit
  | [] => Step.done ()
  | line :: rest =>
    (writeCodeLine env first rest.isEmpty line).bind fun _ => writeCodeLines env false rest

/-- Writes a code block; one without lines is written like one with an empty line. -/
def writeCode (env : Surroundings) (lines : List String) : Step Element Unit :=
  writeCodeLines env true (if lines.isEmpty then [""] else lines)

/-- The indentation of a quoted paragraph, in units. -/
def quoteIndent : Int := 457200

/-- Writes a paragraph of a quote. -/
def writeQuoted (env : Surroundings) (content : List Inline) : Step Element Unit :=
  writeParagraph
    (Change.all [
      Paragraph.addBorder "left" env.settings.ruleColor 12,
      Paragraph.setLeftIndent quoteIndent])
    (writeItems env content .plain)

/-- Writes a horizontal rule. -/
def writeRule (env : Surroundings) : Step Element Unit :=
  writeParagraph (Paragraph.addBorder "bottom" env.settings.ruleColor 6) (Step.done ())

/-! ### Tables -/

/-- Fills a cell. -/
def writeCell (env : Surroundings) (header : Bool) (content : List Inline) (cell : Cell) :
    Step Cell Unit := fun s =>
  match Change.when header (Cell.addShade env.settings.headerShade) cell with
  | (c, some e) => ⟨[c], s, .error e⟩
  | (c, none) =>
    (writeItems env content (if header then .ofHeader else .plain)).gather
      (fun items => { c with content := c.content.append items }) s

/-- Fills the cells of a row; cells beyond the contents get none. -/
def writeCells (env : Surroundings) (header : Bool) :
    List Cell → List (List Inline) → Step Cell Unit
  | [], _ => Step.done ()
  | cell :: cells, contents =>
    ((writeCell env header (contents.headD []) cell).leaving cells).bind fun _ =>
      writeCells env header cells contents.tail

/-- Fills the rows of a table. -/
def writeRows (env : Surroundings) : List (List Cell) → List TableRow → Step (List Cell) Unit
  | [], _ => Step.done ()
  | cells :: rest, [] => (Step.write cells).bind fun _ => writeRows env rest []
  | cells :: rest, row :: rows =>
    (((writeCells env row.header cells row.cells).gather id).leaving rest).bind fun _ =>
      writeRows env rest rows

/-- The number of columns of a table: the length of its longest row, at least one. -/
def columnCount (rows : List TableRow) : Nat :=
  max 1 ((rows.map fun r => r.cells.length).foldl max 0)

/-- Writes a table and an empty paragraph behind it; a table without rows is not written. -/
def writeTable (env : Surroundings) (rows : List TableRow) : Step Element Unit :=
  if rows.isEmpty then Step.done ()
  else
    let (table, _) := Table.setGrid "auto"
      ((Table.ofSize rows.length (columnCount rows)).withStyle "TableGrid")
    ((writeRows env table.rows rows).gather fun filled => .table { table with rows := filled }).bind
      fun _ => Step.write (.paragraph .empty)

/-! ### All blocks -/

mutual

/-- Writes a block. An unknown one is skipped without a record of it in the log. -/
def writeBlock (env : Surroundings) : Block → Step Element Unit
  | .heading level content => writeParagraph noFormat (writeItems env content (.ofHeading level))
  | .paragraph content => writeParagraph noFormat (writeItems env content .plain)
  | .list ordered items =>
    (Step.read fun s => s.listDepth + 1).bind fun level => writeListItems env ordered level 1 items
  | .table rows => writeTable env rows
  | .code lines => writeCode env lines
  | .quote blocks => writeQuote env blocks
  | .rule => writeRule env
  | .unknown => Step.done ()

/-- Writes blocks one after the other. -/
def writeBlocks (env : Surroundings) : List Block → Step Element Unit
  | [] => Step.done ()
  | b :: bs => (writeBlock env b).bind fun _ => writeBlocks env bs

/-- Writes the blocks of a quote. -/
def writeQuote (env : Surroundings) : List Block → Step Element Unit
  | [] => Step.done ()
  | .paragraph content :: bs => (writeQuoted env content).bind fun _ => writeQuote env bs
  | b :: bs => (writeBlock env b).bind fun _ => writeQuote env bs

/-- Writes a list item. -/
def writeListItem (env : Surroundings) (level : Int) (mark : String) :
    List Block → Step Element Unit
  | .paragraph content :: rest =>
    (writeItemStart env level mark content).bind fun _ => deeper (writeBlocks env rest)
  | b :: rest =>
    (writeItemStart env level mark []).bind fun _ =>
      deeper ((writeBlock env b).bind fun _ => writeBlocks env rest)
  | [] => writeItemStart env level mark []

/-- Writes the items of a list, from a number on. -/
def writeListItems (env : Surroundings) (ordered : Bool) (level : Int) (number : Nat) :
    List (List Block) → Step Element Unit
  | [] => Step.done ()
  | item :: items =>
    (writeListItem env level (itemMark ordered number) item).bind fun _ =>
      writeListItems env ordered level (number + 1) items

end

end Folio
