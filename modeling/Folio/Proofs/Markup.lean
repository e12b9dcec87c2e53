import Folio.Proofs.Flattening
import Folio.Word.Markup
import Mathlib.Data.List.Basic

/-!
# Hyperlinks in XML

The elements of a name in the XML of a document are listed together with the names of their parents
(`Xml.named`). Those with the name of a hyperlink are the hyperlinks of the paragraphs of the body
(`named_hyperlink_body`): no property has that name, as long as borders, which are named after their
sides, lie on sides that there are. They do in every document, since they do in every part of its
blocks (`Part.write_isSided`, `isSided_of_build`).
-/

set_option autoImplicit false
set_option relaxedAutoImplicit false

namespace Folio

open Word

namespace Word

/-! ### Elements of a name -/

namespace Xml

/-- The name of an element. -/
def name? : Xml → Option String
  | element name _ _ => some name
  | text _ => none

/-- The children of an element. -/
def children : Xml → List Xml
  | element _ _ children => children
  | text _ => []

/-- The text right in an element. -/
def characters (x : Xml) : List Char :=
  x.children.flatMap fun
    | text content => content.toList
    | element _ _ _ => []

mutual

/-- The elements of a name in an element below a parent, the element itself included, each with the
name of its parent. -/
def named (name parent : String) : Xml → List (String × Xml)
  | text _ => []
  | element other attributes children =>
    (if other = name then [(parent, element other attributes children)] else []) ++
      namedIn name other children

/-- The elements of a name in elements below a parent, each with the name of its parent. -/
def namedIn (name parent : String) : List Xml → List (String × Xml)
  | [] => []
  | x :: xs => named name parent x ++ namedIn name parent xs

end

theorem namedIn_eq_flatMap (name parent : String) (xs : List Xml) :
    namedIn name parent xs = xs.flatMap (named name parent) := by
  induction xs with
  | nil => rfl
  | cons x xs ih => rw [namedIn, ih, List.flatMap_cons]

@[simp] theorem namedIn_append (name parent : String) (xs ys : List Xml) :
    namedIn name parent (xs ++ ys) = namedIn name parent xs ++ namedIn name parent ys := by
  simp only [namedIn_eq_flatMap, List.flatMap_append]

theorem namedIn_map {α : Type} (name parent : String) (f : α → Xml) (xs : List α) :
    namedIn name parent (xs.map f) = xs.flatMap fun x ↦ named name parent (f x) := by
  rw [namedIn_eq_flatMap, List.flatMap_map]

/-- An element in elements below a parent that has the name is listed. -/
theorem mem_namedIn {name parent : String} {x : Xml} {xs : List Xml} (hx : x ∈ xs)
    (hname : x.name? = some name) : (parent, x) ∈ namedIn name parent xs := by
  rw [namedIn_eq_flatMap, List.mem_flatMap]
  refine ⟨x, hx, ?_⟩
  cases x with
  | text content => cases hname
  | element other attributes children =>
    obtain rfl : other = name := Option.some.inj hname
    simp [named]

/-- What is listed in an element is listed in elements that it is one of. -/
theorem namedIn_of_mem {name parent : String} {x : Xml} {xs : List Xml} {e : String × Xml}
    (hx : x ∈ xs) (he : e ∈ named name parent x) : e ∈ namedIn name parent xs := by
  rw [namedIn_eq_flatMap]
  exact List.mem_flatMap.mpr ⟨x, hx, he⟩

end Xml

/-! ### Sides of borders -/

/-- Whether a border lies on a side that a border can have. -/
def Border.isSided (b : Border) : Bool := Table.gridSides.contains b.side

/-- The borders in a property of a paragraph. -/
def ParagraphProperty.borderList : ParagraphProperty → List Border
  | borders sides => sides
  | _ => []

/-- The borders in a property of a table. -/
def TableProperty.borderList : TableProperty → List Border
  | borders sides => sides
  | _ => []

/-- Whether the borders of a paragraph lie on sides. -/
def Paragraph.isSided (p : Paragraph) : Bool :=
  p.propertyList.all fun property ↦ property.borderList.all Border.isSided

/-- Whether the borders of the tables in the body lie on sides. -/
def Element.isSided : Element → Bool
  | paragraph _ => true
  | table content =>
    content.properties.all fun property ↦ property.borderList.all Border.isSided

/-! ### Elements with the name of a hyperlink -/

open Xml

/-- A border does not have the name of a hyperlink. -/
theorem named_hyperlink_border (parent : String) {b : Border} (h : b.isSided = true) :
    named "w:hyperlink" parent b.xml = [] := by
  have hside : "w:" ++ b.side ≠ "w:hyperlink" := by
    intro hname
    have hchars : 'w' :: ':' :: b.side.toList = 'w' :: ':' :: "hyperlink".toList := by
      simpa using congrArg String.toList hname
    have hlink : b.side = "hyperlink" :=
      String.toList_inj.mp (List.cons.inj (List.cons.inj hchars).2).2
    rw [Border.isSided, hlink] at h
    exact absurd h (by decide)
  simp [Border.xml, leaf, named, namedIn, hside]

theorem namedIn_hyperlink_borders (parent : String) {sides : List Border}
    (h : sides.all Border.isSided = true) :
    namedIn "w:hyperlink" parent (sides.map Border.xml) = [] := by
  rw [namedIn_map, List.flatMap_eq_nil_iff]
  exact fun b hb ↦ named_hyperlink_border parent (List.all_eq_true.mp h b hb)

theorem named_hyperlink_runProperty (parent : String) (x : RunProperty) :
    named "w:hyperlink" parent x.xml = [] := by
  cases x with
  | fonts name => cases name <;> simp [RunProperty.xml, leaf, named, namedIn]
  | _ => simp [RunProperty.xml, switchXml, shadeXml, leaf, named, namedIn]

theorem named_hyperlink_runItem (parent : String) (x : RunItem) :
    named "w:hyperlink" parent x.xml = [] := by
  cases x <;> simp [RunItem.xml, Drawing.xml, leaf, node, named, namedIn]

/-- A sequence of properties holds no hyperlink if none of the properties does. -/
theorem namedIn_hyperlink_properties {α : Type} (xml : α → Xml) (name parent : String)
    (hname : name ≠ "w:hyperlink") (properties : Option (List α))
    (h : ∀ x ∈ properties.getD [], named "w:hyperlink" name (xml x) = []) :
    namedIn "w:hyperlink" parent (propertiesXml name (properties.map (·.map xml))) = [] := by
  cases properties with
  | none => rfl
  | some xs =>
    simp only [propertiesXml, Option.map_some, Option.toList_some, namedIn, node, named,
      if_neg hname, namedIn_map, List.nil_append, List.append_nil, List.flatMap_eq_nil_iff]
    exact h

/-- A run holds no hyperlink. -/
theorem named_hyperlink_run (parent : String) (r : Run) :
    named "w:hyperlink" parent r.xml = [] := by
  have hproperties := namedIn_hyperlink_properties RunProperty.xml "w:rPr" "w:r" (by decide)
    r.properties fun x _ ↦ named_hyperlink_runProperty "w:rPr" x
  have hitems : namedIn "w:hyperlink" "w:r" (r.items.map RunItem.xml) = [] := by
    rw [namedIn_map, List.flatMap_eq_nil_iff]
    exact fun x _ ↦ named_hyperlink_runItem "w:r" x
  simp [Run.xml, node, named, hproperties, hitems]

theorem namedIn_hyperlink_runs (parent : String) (runs : List Run) :
    namedIn "w:hyperlink" parent (runs.map Run.xml) = [] := by
  rw [namedIn_map, List.flatMap_eq_nil_iff]
  exact fun r _ ↦ named_hyperlink_run parent r

/-- The elements with the name of a hyperlink in a piece of a paragraph: the piece itself, if it is
a hyperlink. -/
theorem named_hyperlink_item (parent : String) (x : ParagraphItem) :
    named "w:hyperlink" parent x.xml = x.hyperlinks.map fun _ ↦ (parent, x.xml) := by
  cases x with
  | run content => exact named_hyperlink_run parent content
  | hyperlink id label =>
    simp [ParagraphItem.xml, ParagraphItem.hyperlinks, named, namedIn_hyperlink_runs]

/-- The hyperlinks of a paragraph, each with the name of the paragraph. -/
def Paragraph.placedLinks (p : Paragraph) : List (String × Xml) :=
  p.items.flatMap fun x ↦ x.hyperlinks.map fun _ ↦ ("w:p", x.xml)

/-- The elements with the name of a hyperlink in a paragraph are its hyperlinks. -/
theorem named_hyperlink_paragraph (parent : String) {p : Paragraph} (h : p.isSided = true) :
    named "w:hyperlink" parent p.xml = p.placedLinks := by
  have hproperty (x : ParagraphProperty) (hx : x.borderList.all Border.isSided = true) :
      named "w:hyperlink" "w:pPr" x.xml = [] := by
    cases x with
    | borders sides =>
      have hsides : namedIn "w:hyperlink" "w:pBdr" (sides.map Border.xml) = [] :=
        namedIn_hyperlink_borders "w:pBdr" hx
      simp [ParagraphProperty.xml, node, named, hsides]
    | _ => simp [ParagraphProperty.xml, shadeXml, leaf, named, namedIn]
  have hproperties := namedIn_hyperlink_properties ParagraphProperty.xml "w:pPr" "w:p" (by decide)
    p.properties fun x hx ↦ hproperty x (List.all_eq_true.mp h x hx)
  simp [Paragraph.xml, node, named, hproperties, namedIn_map, named_hyperlink_item,
    Paragraph.placedLinks]

/-- A cell holds the hyperlinks of its paragraph. -/
theorem named_hyperlink_cell (parent : String) {c : Cell} (h : c.content.isSided = true) :
    named "w:hyperlink" parent c.xml = c.content.placedLinks := by
  have hproperties : namedIn "w:hyperlink" "w:tcPr" (c.properties.map CellProperty.xml) = [] := by
    rw [namedIn_map, List.flatMap_eq_nil_iff]
    intro x _
    cases x <;> simp [CellProperty.xml, shadeXml, leaf, named, namedIn]
  simp [Cell.xml, node, named, namedIn, hproperties, named_hyperlink_paragraph "w:tc" h]

/-- The elements with the name of a hyperlink in a table are those of its cells. -/
theorem named_hyperlink_table (parent : String) {t : Table}
    (htable : (Element.table t).isSided = true)
    (hcells : ∀ p ∈ (Element.table t).paragraphs, p.isSided = true) :
    named "w:hyperlink" parent t.xml =
      (Element.table t).paragraphs.flatMap Paragraph.placedLinks := by
  have hproperty (x : TableProperty) (hx : x.borderList.all Border.isSided = true) :
      named "w:hyperlink" "w:tblPr" x.xml = [] := by
    cases x with
    | borders sides =>
      have hsides : namedIn "w:hyperlink" "w:tblBorders" (sides.map Border.xml) = [] :=
        namedIn_hyperlink_borders "w:tblBorders" hx
      simp [TableProperty.xml, node, named, hsides]
    | width extent => cases extent <;> simp [TableProperty.xml, leaf, named, namedIn]
    | _ => simp [TableProperty.xml, leaf, named, namedIn]
  have hproperties :
      namedIn "w:hyperlink" "w:tblPr" (t.properties.map TableProperty.xml) = [] := by
    rw [namedIn_map, List.flatMap_eq_nil_iff]
    exact fun x hx ↦ hproperty x (List.all_eq_true.mp htable x hx)
  have hcolumns : namedIn "w:hyperlink" "w:tblGrid"
      (t.columns.map fun w ↦ leaf "w:gridCol" [("w:w", s!"{w}")]) = [] := by
    rw [namedIn_map, List.flatMap_eq_nil_iff]
    intro w _
    simp [leaf, named, namedIn]
  have hrow (row : List Cell) (hrow : row ∈ t.rows) :
      named "w:hyperlink" "w:tbl" (node "w:tr" (row.map Cell.xml)) =
        row.flatMap fun c ↦ c.content.placedLinks := by
    simp only [node, named, namedIn_map]
    rw [if_neg (by decide), List.nil_append]
    refine List.flatMap_congr fun c hc ↦ named_hyperlink_cell "w:tr" (hcells _ ?_)
    exact List.mem_map_of_mem (List.mem_flatten_of_mem hrow hc)
  have hrows : namedIn "w:hyperlink" "w:tbl"
      (t.rows.map fun row ↦ node "w:tr" (row.map Cell.xml)) =
        t.rows.flatten.flatMap fun c ↦ c.content.placedLinks := by
    rw [namedIn_map, List.flatMap_congr hrow, List.flatten_eq_flatMap, List.flatMap_assoc]
    rfl
  have hparts : named "w:hyperlink" parent t.xml =
      namedIn "w:hyperlink" "w:tbl" (t.rows.map fun row ↦ node "w:tr" (row.map Cell.xml)) := by
    rw [Table.xml, node, named, namedIn, namedIn, node, named, hproperties, node, named, hcolumns]
    simp
  rw [hparts, hrows, Element.paragraphs, List.flatMap_map]

/-- The elements with the name of a hyperlink in a body are the hyperlinks of its paragraphs. -/
theorem named_hyperlink_body {body : List Element} (helements : ∀ e ∈ body, e.isSided = true)
    (hparagraphs : ∀ p ∈ paragraphsOf body, p.isSided = true) :
    namedIn "w:hyperlink" "w:body" (body.map Element.xml) =
      (paragraphsOf body).flatMap Paragraph.placedLinks := by
  rw [namedIn_map, paragraphsOf, List.flatMap_assoc]
  refine List.flatMap_congr fun e he ↦ ?_
  have hsided : ∀ p ∈ e.paragraphs, p.isSided = true :=
    fun p hp ↦ hparagraphs p (List.mem_flatMap.mpr ⟨e, he, hp⟩)
  cases e with
  | paragraph content =>
    have hmem : content ∈ (Element.paragraph content).paragraphs := List.mem_singleton_self _
    have hcontent := named_hyperlink_paragraph "w:body" (hsided content hmem)
    simpa [Element.xml, Element.paragraphs] using hcontent
  | table content => exact named_hyperlink_table "w:body" (helements _ he) hsided

end Word

/-! ### Borders of documents -/

section Borders

theorem isSided_of_mem {p : Paragraph} (h : ∀ property ∈ p.propertyList,
    property.borderList.all Border.isSided = true) : p.isSided = true :=
  List.all_eq_true.mpr h

/-- Putting a property with borders on sides into a paragraph keeps its borders on sides. -/
theorem isSided_put {p : Paragraph} (hp : p.isSided = true) {x : ParagraphProperty}
    (hx : x.borderList.all Border.isSided = true) : (p.editProperties x.put).isSided = true := by
  refine isSided_of_mem fun y hy ↦ ?_
  rcases mem_putProperty (show y ∈ x.put p.propertyList from hy) with rfl | hold
  · exact hx
  · exact List.all_eq_true.mp hp y hold

theorem keeps_isSided_addBorder {side : String} (hside : Table.gridSides.contains side = true)
    (color : String) (size : Int) :
    (Paragraph.addBorder side color size).Keeps (·.isSided = true) := by
  intro p hp
  have hold : (ParagraphProperty.bordersIn p.propertyList).all Border.isSided = true := by
    unfold ParagraphProperty.bordersIn
    generalize hfound : p.propertyList.findSome? _ = found
    rcases found with _ | sides
    · rfl
    · obtain ⟨property, hproperty, hsides⟩ := List.exists_of_findSome?_eq_some hfound
      have hsided := List.all_eq_true.mp hp property hproperty
      cases property with
      | borders sides' =>
        obtain rfl : sides' = sides := Option.some.inj hsides
        exact hsided
      | _ => cases hsides
  unfold Paragraph.addBorder
  dsimp only
  split
  · refine isSided_put hp ?_
    simp only [ParagraphProperty.borderList, List.all_append, hold]
    simpa [Border.isSided] using hside
  · exact isSided_put hp hold

theorem keeps_isSided_setLeftIndent (emu : Int) :
    (Paragraph.setLeftIndent emu).Keeps (·.isSided = true) := by
  intro p hp
  unfold Paragraph.setLeftIndent
  dsimp only
  split <;> exact isSided_put hp rfl

theorem keeps_isSided_setHanging (emu : Int) :
    (Paragraph.setHanging emu).Keeps (·.isSided = true) := fun _ hp ↦ isSided_put hp rfl

theorem keeps_isSided_setSpacing (before after : Int) :
    (Paragraph.setSpacing before after).Keeps (·.isSided = true) := fun _ hp ↦ isSided_put hp rfl

theorem keeps_isSided_addShade (fill : String) :
    (Paragraph.addShade fill).Keeps (·.isSided = true) := by
  intro p hp
  unfold Paragraph.addShade
  split
  · refine isSided_of_mem fun y hy ↦ ?_
    rcases (mem_insertBefore _ _ y p.propertyList).mp hy with rfl | hold
    · rfl
    · exact List.all_eq_true.mp hp y hold
  · exact hp

/-- The format of a passage keeps borders on sides. -/
theorem Passage.format_keeps_isSided (settings : Settings) (p : Passage) :
    (p.format settings).Keeps (·.isSided = true) := by
  cases p with
  | itemStart level mark content =>
    rw [Passage.format, hangingIndent]
    rcases indentOfLevel level with e | emu
    · exact fun _ hq ↦ hq
    · exact (keeps_isSided_setLeftIndent emu).all_cons
        ((keeps_isSided_setHanging listHanging).all_cons Change.all_nil_keeps)
  | codeLine first last line =>
    exact (keeps_isSided_addShade _).all_cons
      ((keeps_isSided_setSpacing _ _).all_cons Change.all_nil_keeps)
  | quoted content =>
    exact (keeps_isSided_addBorder (by decide) _ _).all_cons
      ((keeps_isSided_setLeftIndent _).all_cons Change.all_nil_keeps)
  | rule => exact keeps_isSided_addBorder (by decide) _ _
  | _ => exact fun _ hq ↦ hq

/-- The borders of the paragraphs of a passage lie on sides. -/
theorem Passage.write_isSided (env : Surroundings) (p : Passage) :
    (p.write env).WritesOnly (·.isSided = true) := by
  intro s
  have hformat := p.format_keeps_isSided env.settings Paragraph.empty rfl
  unfold Passage.write writeFormatted
  rcases hq : p.format env.settings Paragraph.empty with ⟨q, _ | e⟩ <;>
    rw [hq] at hformat <;>
    exact List.forall_mem_singleton.mpr hformat

end Borders

/-- The borders of the table that cells are written into lie on sides. -/
theorem isSided_emptyTable (rows : List TableRow) :
    (Element.table (emptyTable rows)).isSided = true := rfl

/-- The borders of an element that a part becomes lie on sides. -/
theorem Part.write_isSided (env : Surroundings) (p : Part) :
    (p.write env).WritesOnly (·.isSided = true) := by
  cases p with
  | passage p =>
    intro s x hx
    obtain ⟨q, -, rfl⟩ := List.mem_map.mp hx
    rfl
  | table rows => exact fun s ↦ List.forall_mem_singleton.mpr (isSided_emptyTable rows)

/-- The borders of a document lie on sides. -/
theorem isSided_of_build {env : Surroundings} {blocks : List Block} {s : RenderState}
    {d : Document} (h : build env blocks = (s, .ok d)) :
    (∀ e ∈ d.body, e.isSided = true) ∧ ∀ p ∈ paragraphsOf d.body, p.isSided = true := by
  obtain ⟨-, hwritten, -, -⟩ := written_of_build h
  have helements := Step.writesOnly_forEach
    (fun p (_ : p ∈ partsOf 1 blocks) ↦ p.write_isSided env) {}
  have hparagraphs := Step.writesOnly_forEach
    (fun p (_ : p ∈ passagesOf 1 blocks) ↦ p.write_isSided env) {}
  have hblocks : writeBlocks env blocks {} = writeParts env (partsOf 1 blocks) {} :=
    writeBlocks_eq blocks {}
  rw [← writeParts, ← hblocks, (outcome_of_build h).1] at helements
  exact ⟨helements, hwritten ▸ hparagraphs⟩

end Folio
