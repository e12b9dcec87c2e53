import Folio.Word.Paragraph

/-!
# Tables

A table has properties, the widths of its columns, and rows of cells; every cell holds exactly one
paragraph. A new table spreads its columns evenly over the width of the text.
-/

set_option autoImplicit false
set_option relaxedAutoImplicit false

namespace Folio.Word

/-- How wide a table is. -/
inductive TableWidth
  | automatic
  | full
  deriving DecidableEq, Repr

/-- A property of a table. -/
inductive TableProperty
  | style (name : String)
  | width (extent : TableWidth)
  | borders (sides : List Border)
  | look
  deriving DecidableEq, Repr

namespace TableProperty

/-- The place of a property in the order of the schema. -/
def rank : TableProperty → Nat
  | style _ => 0
  | width _ => 1
  | borders _ => 2
  | look => 3

/-- A sequence of properties in which `x` is the one of its kind. -/
def put (x : TableProperty) (props : List TableProperty) : List TableProperty :=
  putProperty (fun y => y.rank = x.rank) (fun y => decide (x.rank < y.rank)) x props

/-- A sequence of properties with another one, behind those of its kind. -/
def add (x : TableProperty) (props : List TableProperty) : List TableProperty :=
  insertBefore (fun y => decide (x.rank < y.rank)) x props

/-- A sequence of properties without those of the kind of a rank. -/
def without (rank : Nat) (props : List TableProperty) : List TableProperty :=
  props.filter fun y => y.rank ≠ rank

end TableProperty

/-- A property of a cell. -/
inductive CellProperty
  | width (twips : Int)
  | shade (fill : String)
  deriving DecidableEq, Repr

namespace CellProperty

/-- The place of a property in the order of the schema. -/
def rank : CellProperty → Nat
  | width _ => 0
  | shade _ => 1

/-- A sequence of properties with another one, behind those of its kind. -/
def add (x : CellProperty) (props : List CellProperty) : List CellProperty :=
  insertBefore (fun y => decide (x.rank < y.rank)) x props

end CellProperty

/-- A cell of a table. -/
structure Cell where
  properties : List CellProperty
  content : Paragraph
  deriving DecidableEq, Repr

/-- A table. -/
structure Table where
  properties : List TableProperty
  columns : List Int
  rows : List (List Cell)
  deriving DecidableEq, Repr

namespace Table

/-- The width of each of a number of columns, in twips. -/
def columnWidth (columns : Nat) : Int := twips (textWidth / columns : Nat)

/-- An empty cell of a width. -/
def emptyCell (width : Int) : Cell := ⟨[.width width], .empty⟩

/-- A table of empty cells. -/
def ofSize (rows columns : Nat) : Table :=
  let width := columnWidth columns
  ⟨[.width .automatic, .look], List.replicate columns width,
    List.replicate rows (List.replicate columns (emptyCell width))⟩

/-- A table in a named style. -/
def withStyle (name : String) (t : Table) : Table :=
  { t with properties := (TableProperty.style name).put t.properties }

/-- The sides on which a grid has lines. -/
def gridSides : List String := ["top", "left", "bottom", "right", "insideH", "insideV"]

/-- The lines of a grid. -/
def gridBorders (color : String) : List Border := gridSides.map fun side => ⟨side, color, 4, 0⟩

/-- Makes a table as wide as the text and draws its grid anew. With a colour that XML cannot hold
the table is left without borders. -/
def setGrid (color : String) : Change Table := fun t =>
  let bare := TableProperty.without 2 ((TableProperty.width .full).put t.properties)
  match textFailure? color with
  | none => ({ t with properties := (TableProperty.borders (gridBorders color)).add bare }, none)
  | some e => ({ t with properties := bare }, some e)

/-- Takes away the width of a table. -/
def dropWidth (t : Table) : Table := { t with properties := TableProperty.without 1 t.properties }

end Table

namespace Cell

/-- Adds a shading, unless XML cannot hold it. -/
def addShade (fill : String) : Change Cell := fun c =>
  match textFailure? fill with
  | none => ({ c with properties := (CellProperty.shade fill).add c.properties }, none)
  | some e => (c, some e)

end Cell

/-- Adds a shading to the cell in a row and a column, if there is one. -/
def Table.shadeCell (row column : Nat) (fill : String) : Change Table := fun t =>
  match t.rows[row]?.bind fun cells => cells[column]? with
  | none => (t, none)
  | some cell =>
    let (cell, result) := cell.addShade fill
    ({ t with rows := t.rows.modify row fun cells => cells.set column cell }, result)

/-- A part of the body of a document. -/
inductive Element
  | paragraph (content : Paragraph)
  | table (content : Table)
  deriving DecidableEq, Repr

end Folio.Word
