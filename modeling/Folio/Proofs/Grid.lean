import Folio.Proofs.ImageUrls
import Folio.Proofs.Markup
import Mathlib.Order.Bounds.Basic

/-!
# The grid of a table

A table becomes a rectangle of cells, as wide as its longest row (`isLeast_columnCount`). Its cells
are filled row by row, each from the state that the one before it left: with the content that stands
at its place in the text, or with nothing if the row is too short (`CellShows`). `table_grid` reads
the grid off the XML of the table (`TableShows`).
-/

set_option autoImplicit false
set_option relaxedAutoImplicit false

namespace Folio

open Word

/-! ### Elements below an element -/

namespace Word

namespace Xml

@[simp] theorem name?_node (name : String) (xs : List Xml) : (node name xs).name? = some name := rfl

@[simp] theorem name?_leaf (name : String) (attributes : List (String × String)) :
    (leaf name attributes).name? = some name := rfl

@[simp] theorem children_node (name : String) (xs : List Xml) : (node name xs).children = xs := rfl

/-- The elements that a path of names leads to from an element. -/
def under : List String → Xml → List Xml
  | [], x => [x]
  | name :: path, x => (x.children.filter (·.name? = some name)).flatMap (under path)

theorem under_singleton (name : String) (x : Xml) :
    x.under [name] = x.children.filter (·.name? = some name) := List.flatMap_singleton' _

/-- Elements of one name are all found under it, and none under another one. -/
theorem filter_name_map {α : Type} {f : α → Xml} {own : String}
    (h : ∀ a, (f a).name? = some own) (name : String) (as : List α) :
    (as.map f).filter (·.name? = some name) = if own = name then as.map f else [] := by
  rw [List.filter_map]
  split <;> simp [Function.comp_def, *]

end Xml

@[simp] theorem Paragraph.name?_xml (p : Paragraph) : p.xml.name? = some "w:p" := rfl

@[simp] theorem Cell.name?_xml (c : Cell) : c.xml.name? = some "w:tc" := rfl

/-- A cell holds its paragraph. -/
theorem Cell.under_paragraph (c : Cell) : c.xml.under ["w:p"] = [c.content.xml] := by
  simp [Cell.xml, Xml.under_singleton]

/-- The shading that a property of a cell is, if it is one. -/
def CellProperty.shade? : CellProperty → Option String
  | .shade fill => some fill
  | _ => none

/-- The shadings of a cell are those among its properties. -/
theorem Cell.under_shades (c : Cell) :
    c.xml.under ["w:tcPr", "w:shd"] =
      (c.properties.filterMap CellProperty.shade?).map shadeXml := by
  have hproperties (properties : List CellProperty) :
      (properties.map CellProperty.xml).filter (·.name? = some "w:shd") =
        (properties.filterMap CellProperty.shade?).map shadeXml := by
    induction properties with
    | nil => rfl
    | cons x xs ih =>
      cases x <;> simp [CellProperty.xml, List.filterMap_cons, CellProperty.shade?, shadeXml, ih]
  simp [Cell.xml, Xml.under, hproperties]

/-- The columns of the grid of a table. -/
theorem Table.length_under_columns (t : Table) :
    (t.xml.under ["w:tblGrid", "w:gridCol"]).length = t.columns.length := by
  have hcolumns := Xml.filter_name_map fun w : Int ↦ Xml.name?_leaf "w:gridCol" [("w:w", w.repr)]
  have hrows := Xml.filter_name_map fun row : List Cell ↦ Xml.name?_node "w:tr" (row.map Cell.xml)
  simp [Table.xml, Xml.under, hcolumns, hrows]

/-- The rows of a table. -/
theorem Table.under_rows (t : Table) :
    t.xml.under ["w:tr"] = t.rows.map fun row ↦ Xml.node "w:tr" (row.map Cell.xml) := by
  have hrows := Xml.filter_name_map fun row : List Cell ↦ Xml.name?_node "w:tr" (row.map Cell.xml)
  simp [Table.xml, Xml.under_singleton, hrows]

/-- The cells of a row. -/
theorem under_cells (row : List Cell) :
    (Xml.node "w:tr" (row.map Cell.xml)).under ["w:tc"] = row.map Cell.xml := by
  simp [Xml.under_singleton, Xml.filter_name_map Cell.name?_xml]

end Word

/-! ### The number of columns -/

/-- A table has as many columns as its longest row has cells, and at least one. -/
theorem isLeast_columnCount (rows : List TableRow) :
    IsLeast {n | 0 < n ∧ ∀ row ∈ rows, row.cells.length ≤ n} (columnCount rows) := by
  constructor
  · exact ⟨Nat.lt_of_lt_of_le Nat.one_pos (Nat.le_max_left _ _),
      fun row hrow ↦ length_le_columnCount hrow⟩
  · rintro n ⟨hpositive, hrows⟩
    have hlongest : (rows.map fun r ↦ r.cells.length).foldr max 0 ≤ n :=
      List.max_le_of_forall_le _ n (List.forall_mem_map.mpr hrows)
    rw [columnCount, List.foldl_eq_foldr]
    exact Nat.max_le.mpr ⟨hpositive, hlongest⟩

/-! ### Filling cells -/

/-- What stands at a place of a table, filled from a state to a state: one paragraph, which holds
the content at the place, bold in a header, or nothing if there is none; and a shading in a header,
and only there. -/
structure CellShows (env : Surroundings) (header : Bool) (content : Option (List Inline))
    (s t : RenderState) (x : Xml) : Prop where
  paragraph : ∃ q : Paragraph, x.under ["w:p"] = [q.xml] ∧ q.properties = none ∧
    match content with
    | some content => writeItems env content { bold := header } s = ⟨q.items, t, .ok ()⟩
    | none => q = .empty ∧ t = s
  shades : x.under ["w:tcPr", "w:shd"] =
    if header then [shadeXml env.settings.headerShade] else []

section Fill

variable {env : Surroundings} {header : Bool} {width : Int}

/-- An empty cell that can be filled shows its content. -/
theorem writeCell_shows {content : Option (List Inline)} {s : RenderState}
    (h : (writeCell env header (content.getD []) (Table.emptyCell width) s).result = .ok ()) :
    ∃ cell, (writeCell env header (content.getD []) (Table.emptyCell width) s).written = [cell] ∧
      CellShows env header content s
        (writeCell env header (content.getD []) (Table.emptyCell width) s).state cell.xml := by
  obtain ⟨properties, hproperties, hchange⟩ : ∃ properties,
      properties.filterMap CellProperty.shade? =
        (if header then [env.settings.headerShade] else []) ∧
      Change.when header (Cell.addShade env.settings.headerShade) (Table.emptyCell width) =
        (⟨properties, .empty⟩, none) := by
    cases header with
    | false => exact ⟨[.width width], rfl, rfl⟩
    | true =>
      rcases hshade : textFailure? env.settings.headerShade with _ | e
      · exact ⟨[.width width, .shade env.settings.headerShade], rfl,
          by simp [Change.when, Cell.addShade, hshade, Table.emptyCell, CellProperty.add,
            insertBefore_cons, CellProperty.rank]⟩
      · simp [writeCell, Change.when, Cell.addShade, hshade] at h
  unfold writeCell at h ⊢
  simp only [hchange, Step.gather_result] at h
  simp only [hchange, Step.gather_written, Step.gather_state]
  refine ⟨_, rfl, ⟨⟨_, Cell.under_paragraph _, rfl, ?_⟩, ?_⟩⟩
  · cases content with
    | none => exact ⟨rfl, rfl⟩
    | some content =>
      have hstyle : (if header then .ofHeader else .plain) = ({ bold := header } : RunStyle) := by
        cases header <;> rfl
      simp only [Option.getD_some, hstyle] at h ⊢
      rw [← h]
      rfl
  · rw [Cell.under_shades, hproperties]
    split <;> rfl

/-- The cells of a row that can be filled show their contents, each filled from the state that the
one before it left. -/
theorem writeCells_shows {columns : ℕ} {contents : List (List Inline)} {s : RenderState}
    (h : (writeCells env header (List.replicate columns (Table.emptyCell width)) contents
      s).result = .ok ()) :
    ∃ (cells : List Cell) (before : ℕ → RenderState),
      (writeCells env header (List.replicate columns (Table.emptyCell width)) contents s) =
        ⟨cells, before columns, .ok ()⟩ ∧
      before 0 = s ∧ cells.length = columns ∧
      ∀ c < columns, ∃ cell, cells[c]? = some cell ∧
        CellShows env header contents[c]? (before c) (before (c + 1)) cell.xml := by
  induction columns generalizing contents s with
  | zero => exact ⟨[], fun _ ↦ s, rfl, rfl, rfl, fun c hc ↦ absurd hc (Nat.not_lt_zero c)⟩
  | succ columns ih =>
    rw [List.replicate_succ, writeCells] at h ⊢
    obtain ⟨⟨⟩, hfirst, hrest⟩ := Step.ok_of_bind_ok h
    rw [Step.bind_of_ok hfirst]
    have hleaving := Step.leaving_of_ok hfirst
    rw [hleaving] at hfirst hrest ⊢
    have hcontent : contents.headD [] = contents[0]?.getD [] := by cases contents <;> rfl
    rw [hcontent] at hfirst hrest ⊢
    obtain ⟨cell, hwritten, hcell⟩ := writeCell_shows hfirst
    obtain ⟨cells, before, hcells, hstart, hlength, hshows⟩ := ih hrest
    rw [← hstart] at hcell
    refine ⟨cell :: cells, fun c ↦ c.casesOn s before, ?_, rfl, congrArg (· + 1) hlength, ?_⟩
    · rw [hwritten, hcells]
      rfl
    · intro c hc
      cases c with
      | zero => exact ⟨cell, rfl, hcell⟩
      | succ c =>
        obtain ⟨x, hx, hxshows⟩ := hshows c (Nat.lt_of_succ_lt_succ hc)
        rw [List.getElem?_tail] at hxshows
        exact ⟨x, hx, hxshows⟩

/-- The rows of a table that can be filled show their contents, cell by cell, each filled from the
state that the one before it left. -/
theorem writeRows_shows {columns : ℕ} {rows : List TableRow} {s : RenderState}
    (h : (writeRows env (List.replicate rows.length
      (List.replicate columns (Table.emptyCell width))) rows s).result = .ok ()) :
    ∃ (filled : List (List Cell)) (before : ℕ → ℕ → RenderState),
      (writeRows env (List.replicate rows.length
        (List.replicate columns (Table.emptyCell width))) rows s) =
          ⟨filled, before rows.length 0, .ok ()⟩ ∧
      before 0 0 = s ∧ (∀ r < rows.length, before r columns = before (r + 1) 0) ∧
      filled.length = rows.length ∧
      ∀ r row, rows[r]? = some row → ∃ cells, filled[r]? = some cells ∧ cells.length = columns ∧
        ∀ c < columns, ∃ cell, cells[c]? = some cell ∧
          CellShows env row.header row.cells[c]? (before r c) (before r (c + 1)) cell.xml := by
  induction rows generalizing s with
  | nil =>
    exact ⟨[], fun _ _ ↦ s, rfl, rfl, fun r hr ↦ absurd hr (Nat.not_lt_zero r), rfl,
      fun r row hrow ↦ by simp at hrow⟩
  | cons row rows ih =>
    rw [List.length_cons, List.replicate_succ, writeRows] at h ⊢
    obtain ⟨⟨⟩, hfirst, hrest⟩ := Step.ok_of_bind_ok h
    rw [Step.bind_of_ok hfirst]
    have hleaving := Step.leaving_of_ok hfirst
    rw [hleaving] at hfirst hrest ⊢
    obtain ⟨cells, before, hcells, hstart, hlength, hshows⟩ := writeCells_shows hfirst
    obtain ⟨filled, later, hfilled, hnext, hfollow, hlengths, hlater⟩ := ih hrest
    rw [Step.gather_state, hcells] at hnext
    refine ⟨cells :: filled, fun r ↦ r.casesOn before later, ?_, hstart, ?_,
      congrArg (· + 1) hlengths, ?_⟩
    · rw [hfilled, Step.gather_written, hcells]
      rfl
    · intro r hr
      cases r with
      | zero => exact hnext.symm
      | succ r => exact hfollow r (Nat.lt_of_succ_lt_succ hr)
    · intro r other hother
      cases r with
      | zero =>
        obtain rfl : row = other := Option.some.inj hother
        exact ⟨cells, rfl, hlength, hshows⟩
      | succ r => exact hlater r other hother

end Fill

/-! ### Tables -/

/-- The XML of a table shows rows of a text: a column for each cell of the longest row, a row for
each of them, and in each as many cells as there are columns. The cell in a row and a column shows
what stands there, or nothing; `before` has the state in which it is filled. -/
structure TableShows (env : Surroundings) (rows : List TableRow) (columns : ℕ)
    (before : ℕ → ℕ → RenderState) (x : Xml) : Prop where
  name : x.name? = some "w:tbl"
  isLeast_columns : IsLeast {n | 0 < n ∧ ∀ row ∈ rows, row.cells.length ≤ n} columns
  length_columns : (x.under ["w:tblGrid", "w:gridCol"]).length = columns
  length_rows : (x.under ["w:tr"]).length = rows.length
  cells : ∀ r row, rows[r]? = some row → ∃ tr, (x.under ["w:tr"])[r]? = some tr ∧
    (tr.under ["w:tc"]).length = columns ∧
    ∀ c < columns, ∃ tc, (tr.under ["w:tc"])[c]? = some tc ∧
      CellShows env row.header row.cells[c]? (before r c) (before r (c + 1)) tc
  follows : ∀ r < rows.length, before r columns = before (r + 1) 0

/-- The table of rows with cells that show their contents shows the rows. -/
theorem tableShows_of_cells {env : Surroundings} {rows : List TableRow}
    {filled : List (List Cell)} {before : ℕ → ℕ → RenderState}
    (hlength : filled.length = rows.length)
    (hfollows : ∀ r < rows.length, before r (columnCount rows) = before (r + 1) 0)
    (hcells : ∀ r row, rows[r]? = some row → ∃ cells, filled[r]? = some cells ∧
      cells.length = columnCount rows ∧ ∀ c < columnCount rows, ∃ cell, cells[c]? = some cell ∧
        CellShows env row.header row.cells[c]? (before r c) (before r (c + 1)) cell.xml) :
    TableShows env rows (columnCount rows) before { emptyTable rows with rows := filled }.xml where
  name := rfl
  isLeast_columns := isLeast_columnCount rows
  length_columns := by
    rw [Table.length_under_columns]
    exact List.length_replicate
  length_rows := by rw [Table.under_rows, List.length_map, hlength]
  follows := hfollows
  cells := by
    intro r row hrow
    obtain ⟨cells, hfilled, hcolumns, hshows⟩ := hcells r row hrow
    refine ⟨.node "w:tr" (cells.map Cell.xml), ?_, ?_, fun c hc ↦ ?_⟩
    · rw [Table.under_rows, List.getElem?_map, hfilled]
      rfl
    · rw [under_cells, List.length_map, hcolumns]
    · obtain ⟨cell, hcell, hx⟩ := hshows c hc
      refine ⟨cell.xml, ?_, hx⟩
      rw [under_cells, List.getElem?_map, hcell]
      rfl

/-- A table that can be written keeps every cell in its place, and is followed by an empty
paragraph. The cells are filled row by row, each from the state that the one before it left, and
nothing else changes the state. A table without rows writes nothing. -/
theorem table_grid {env : Surroundings} {rows : List TableRow} {s : RenderState}
    (h : (writeBlock env (.table rows) s).result = .ok ()) :
    (rows = [] → writeBlock env (.table rows) s = ⟨[], s, .ok ()⟩) ∧
      (rows ≠ [] → ∃ x columns before,
        (writeBlock env (.table rows) s).written.map Element.xml = [x, Paragraph.empty.xml] ∧
        TableShows env rows columns before x ∧
        before 0 0 = s ∧
        (writeBlock env (.table rows) s).state = before rows.length 0) := by
  constructor
  · rintro rfl
    rfl
  · intro hne
    have htable : writeBlock env (.table rows) =
        ((writeRows env (emptyTable rows).rows rows).gather fun filled ↦
          Element.table { emptyTable rows with rows := filled }).bind fun _ ↦
            Step.write (.paragraph .empty) := by
      rw [writeBlock, writeTable, if_neg (by simpa using hne)]
      rfl
    rw [htable] at h ⊢
    obtain ⟨⟨⟩, hrows, -⟩ := Step.ok_of_bind_ok h
    rw [Step.bind_of_ok hrows]
    have hempty : (emptyTable rows).rows = List.replicate rows.length (List.replicate
        (columnCount rows) (Table.emptyCell (Table.columnWidth (columnCount rows)))) := rfl
    rw [Step.gather_result, hempty] at hrows
    obtain ⟨filled, before, hwritten, hstart, hfollows, hlength, hcells⟩ := writeRows_shows hrows
    rw [← hempty] at hwritten
    refine ⟨{ emptyTable rows with rows := filled }.xml, columnCount rows, before, ?_,
      tableShows_of_cells hlength hfollows hcells, hstart, ?_⟩
    · rw [Step.gather_written, hwritten]
      rfl
    · rw [Step.gather_state, hwritten]
      rfl

/-- A header with one cell above a row with two, and a row without cells. -/
def raggedRows : List TableRow :=
  [⟨true, [[.text "a"]]⟩, ⟨false, [[.text "b"], [.emphasis 1 [.text "c"]]]⟩, ⟨false, []⟩]

theorem table_grid_raggedRows :
    (writeBlock {} (.table raggedRows) {}).result = .ok () ∧
      ∃ x before, (writeBlock {} (.table raggedRows) {}).written.map Element.xml =
          [x, Paragraph.empty.xml] ∧
        TableShows {} raggedRows 2 before x := by
  have hok : (writeBlock {} (.table raggedRows) {}).result = .ok () := by decide +kernel
  obtain ⟨x, columns, before, hwritten, hshows, -⟩ := (table_grid hok).2 (by decide)
  have hcolumns : columns = 2 :=
    hshows.isLeast_columns.unique (isLeast_columnCount raggedRows)
  exact ⟨hok, x, before, hwritten, hcolumns ▸ hshows⟩

end Folio
