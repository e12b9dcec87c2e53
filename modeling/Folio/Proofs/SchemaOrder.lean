import Folio.Proofs.Markup
import Mathlib.Data.List.Basic

/-!
# The order of the schema

The schema of the document format lists the elements that may stand in the properties of a paragraph,
a run, a table and a cell, and a reader of documents may refuse properties in any other order
(`InOrder`). In terms of the ranks of the properties that is to say that they rise (`Rising`,
`Ranks.inOrder_iff`), and inserting and replacing properties by rank keeps them rising
(`Rising.insertBefore`, `Rising.putProperty`). A program that writes the format finds the place of a
new property by a list of the names that have to follow it (`insertByName`); in properties that are
in order that is the place that the ranks tell (`insertByName_eq`), for each of the lists there are
(`placedByName`).
-/

set_option autoImplicit false
set_option relaxedAutoImplicit false

namespace Folio

open Word

namespace Word

/-! ### Schemas -/

/-- The name of an element, empty for a text. -/
def Xml.tag (x : Xml) : String := x.name?.getD ""

/-- The elements that occur in the properties of a paragraph, in the order of the schema. -/
def paragraphSchema : List String := ["w:pBdr", "w:shd", "w:spacing", "w:ind"]

/-- The elements that occur in the properties of a run, in the order of the schema. -/
def runSchema : List String := ["w:rFonts", "w:b", "w:i", "w:color", "w:sz", "w:u", "w:shd"]

/-- The elements that occur in the properties of a table, in the order of the schema. -/
def tableSchema : List String := ["w:tblStyle", "w:tblW", "w:tblBorders", "w:tblLook"]

/-- The elements that occur in the properties of a cell, in the order of the schema. -/
def cellSchema : List String := ["w:tcW", "w:shd"]

/-- The name of the elements that may be repeated. -/
def shadeTag : String := "w:shd"

/-- Elements stand in the order of a schema: all have names that it lists, and of two of them the
first is listed before the second, unless both are shadings. -/
def InOrder (schema : List String) (elements : List Xml) : Prop :=
  (∀ x ∈ elements, x.tag ∈ schema) ∧
    elements.Pairwise fun x y ↦
      schema.idxOf x.tag < schema.idxOf y.tag ∨ x.tag = shadeTag ∧ y.tag = shadeTag

section Ranks

variable {α : Type} {rank : α → Nat} {repeated : Nat} {props : List α} {x : α}

/-- The ranks of a sequence rise, and only one of them may be repeated. -/
def Rising (rank : α → Nat) (repeated : Nat) (props : List α) : Prop :=
  props.Pairwise fun x y ↦ rank x < rank y ∨ rank x = repeated ∧ rank y = repeated

theorem Rising.nil : Rising rank repeated [] := List.Pairwise.nil

theorem Rising.filter (h : Rising rank repeated props) (p : α → Bool) :
    Rising rank repeated (props.filter p) := List.Pairwise.filter p h

theorem rising_iff_map : Rising rank repeated props ↔ Rising id repeated (props.map rank) := by
  simp only [Rising, List.pairwise_map, id]

/-- What stands behind an element has no lower rank. -/
theorem Rising.le_of_mem {y z : α} {ys : List α} (h : Rising rank repeated (y :: ys))
    (hz : z ∈ y :: ys) : rank y ≤ rank z := by
  rcases List.mem_cons.mp hz with rfl | hz
  · exact le_rfl
  · rcases List.rel_of_pairwise_cons h hz with hlt | ⟨hy, hz⟩
    · exact hlt.le
    · exact (hy.trans hz.symm).le

/-- The elements that are above a rank are the last ones. -/
theorem Rising.exists_split (h : Rising rank repeated props) (k : Nat) :
    ∃ lower higher, props = lower ++ higher ∧ (∀ y ∈ lower, rank y ≤ k) ∧
      ∀ y ∈ higher, k < rank y := by
  induction props with
  | nil => exact ⟨[], [], rfl, by simp, by simp⟩
  | cons y ys ih =>
    by_cases hy : rank y ≤ k
    · obtain ⟨lower, higher, rfl, hlower, hhigher⟩ := ih (List.Pairwise.of_cons h)
      exact ⟨y :: lower, higher, rfl, List.forall_mem_cons.mpr ⟨hy, hlower⟩, hhigher⟩
    · refine ⟨[], y :: ys, rfl, by simp, fun z hz ↦ ?_⟩
      exact (Nat.lt_of_not_le hy).trans_le (h.le_of_mem hz)

/-- Ranks still rise when an element is inserted in front of those of higher rank, if its rank may be
repeated or is new. -/
theorem Rising.insertBefore (h : Rising rank repeated props)
    (hx : rank x = repeated ∨ ∀ y ∈ props, rank y ≠ rank x) :
    Rising rank repeated (insertBefore (fun y ↦ decide (rank x < rank y)) x props) := by
  induction props with
  | nil => exact List.pairwise_singleton _ _
  | cons y ys ih =>
    have hys : Rising rank repeated ys := List.Pairwise.of_cons h
    rw [insertBefore_cons]
    split
    · next hfollows =>
      have hlt : rank x < rank y := of_decide_eq_true hfollows
      exact List.pairwise_cons.mpr ⟨fun z hz ↦ .inl (hlt.trans_le (h.le_of_mem hz)), h⟩
    · next hfollows =>
      have hle : rank y ≤ rank x := by simpa using hfollows
      refine List.pairwise_cons.mpr ⟨fun z hz ↦ ?_, ih hys ?_⟩
      · rcases (mem_insertBefore _ _ _ _).mp hz with rfl | hz
        · rcases hle.lt_or_eq with hlt | heq
          · exact .inl hlt
          · rcases hx with hrepeated | hnew
            · exact .inr ⟨heq.trans hrepeated, hrepeated⟩
            · exact absurd heq (hnew y List.mem_cons_self)
        · exact List.rel_of_pairwise_cons h hz
      · exact hx.imp_right fun hnew z hz ↦ hnew z (List.mem_cons_of_mem y hz)

/-- An element that replaces one of its rank leaves the ranks as they are. -/
theorem map_rank_replaceFirst (x : α) (props : List α) :
    (replaceFirst (fun y ↦ decide (rank y = rank x)) x props).map rank = props.map rank := by
  induction props with
  | nil => rfl
  | cons y ys ih =>
    rw [replaceFirst]
    split
    · next hy => rw [List.map_cons, List.map_cons, of_decide_eq_true hy]
    · rw [List.map_cons, List.map_cons, ih]

/-- Ranks still rise when an element is made the one of its rank. -/
theorem Rising.putProperty (h : Rising rank repeated props) (x : α) :
    Rising rank repeated (putProperty (fun y ↦ decide (rank y = rank x))
      (fun y ↦ decide (rank x < rank y)) x props) := by
  unfold Word.putProperty
  split
  · rwa [rising_iff_map, map_rank_replaceFirst, ← rising_iff_map]
  · next hnone =>
    refine h.insertBefore (.inr fun y hy hrank ↦ hnone ?_)
    exact List.any_eq_true.mpr ⟨y, hy, decide_eq_true hrank⟩

/-- A rank that may not be repeated occurs at most once. -/
theorem Rising.filter_eq_singleton (h : Rising rank repeated props) (hne : rank x ≠ repeated)
    (hfirst : props.find? (fun y ↦ decide (rank y = rank x)) = some x) :
    props.filter (fun y ↦ decide (rank y = rank x)) = [x] := by
  have hkept := h.filter fun y ↦ decide (rank y = rank x)
  have hmem : ∀ y ∈ props.filter (fun y ↦ decide (rank y = rank x)), rank y = rank x :=
    fun y hy ↦ of_decide_eq_true (List.mem_filter.mp hy).2
  rw [← List.head?_filter] at hfirst
  obtain ⟨ys, hys⟩ := List.head?_eq_some_iff.mp hfirst
  rw [hys] at hkept hmem ⊢
  refine congrArg (x :: ·) (List.eq_nil_iff_forall_not_mem.mpr fun y hy ↦ ?_)
  rcases List.rel_of_pairwise_cons hkept hy with hlt | ⟨hx, -⟩
  · exact hlt.ne' (hmem y (List.mem_cons_of_mem x hy))
  · exact hne hx

/-! ### The place of a property -/

/-- A sequence with `x` in front of the first element with the first of some names that any element
has, at the end if no element has one of them. -/
def insertByName (name : α → String) (successors : List String) (x : α) (props : List α) : List α :=
  match successors.findSome? fun n ↦ props.findIdx? fun y ↦ decide (name y = n) with
  | some i => props.take i ++ x :: props.drop i
  | none => props ++ [x]

/-- A schema tells the ranks of properties by the elements that they stand for. -/
structure Ranks (schema : List String) (xml : α → Xml) (rank : α → Nat) : Prop where
  distinct : schema.Nodup
  listed : ∀ x, (xml x).tag ∈ schema
  place : ∀ x, schema.idxOf (xml x).tag = rank x

variable {schema : List String} {xml : α → Xml}

/-- Properties have the same rank exactly if their elements have the same name. -/
theorem Ranks.tag_eq_iff (h : Ranks schema xml rank) {y : α} {name : String} :
    (xml y).tag = name ↔ rank y = schema.idxOf name := by
  rw [← h.place y, List.idxOf_inj (h.listed y)]

/-- The elements of properties are in order exactly if the ranks of the properties rise, where only
the rank of shadings is repeated. -/
theorem Ranks.inOrder_iff (h : Ranks schema xml rank) :
    InOrder schema (props.map xml) ↔ Rising rank (schema.idxOf shadeTag) props := by
  have hlisted : ∀ y ∈ props.map xml, y.tag ∈ schema := by
    intro y hy
    obtain ⟨z, -, rfl⟩ := List.mem_map.mp hy
    exact h.listed z
  rw [InOrder, and_iff_right hlisted]
  simp only [Rising, List.pairwise_map, h.place, h.tag_eq_iff]

/-- Names that a property precedes: they are the names of all the properties of higher rank, and come
in the order of the schema as far as it lists them. -/
structure Precedes (schema : List String) (xml : α → Xml) (rank : α → Nat) (x : α)
    (successors : List String) : Prop where
  later : ∀ y, (xml y).tag ∈ successors ↔ rank x < rank y
  sorted : (successors.filter (schema.contains ·)).Pairwise (schema.idxOf · < schema.idxOf ·)

section Search

variable {successors : List String} {lower : List α}

/-- A property precedes names if those of them that the schema lists are what it lists behind the
property. -/
theorem Ranks.precedes (h : Ranks schema xml rank) {k : Nat} (hx : rank x = k)
    (hsuccessors : successors.filter (schema.contains ·) = schema.drop (k + 1)) :
    Precedes schema xml rank x successors where
  later y := by
    have hdrop : (xml y).tag ∈ successors ↔ (xml y).tag ∈ schema.drop (k + 1) := by
      rw [← hsuccessors]
      simp [h.listed y]
    rw [hdrop, List.mem_drop_iff_getElem, hx, ← h.place y]
    constructor
    · rintro ⟨i, hi, heq⟩
      rw [← heq, h.distinct.idxOf_getElem]
      omega
    · intro hlt
      have hbound := List.idxOf_lt_length_of_mem (h.listed y)
      refine ⟨schema.idxOf (xml y).tag - (k + 1), by omega, ?_⟩
      have hindex : k + 1 + (schema.idxOf (xml y).tag - (k + 1)) = schema.idxOf (xml y).tag := by
        omega
      simp only [hindex, List.getElem_idxOf]
  sorted := by
    rw [hsuccessors]
    refine List.Pairwise.sublist (List.drop_sublist _ _) (List.pairwise_iff_getElem.mpr ?_)
    intro i j hi hj hij
    rwa [h.distinct.idxOf_getElem, h.distinct.idxOf_getElem]

/-- No property of lower or equal rank has a name that a property precedes. -/
theorem Precedes.findIdx?_lower (hx : Precedes schema xml rank x successors)
    (hlower : ∀ y ∈ lower, rank y ≤ rank x) {n : String} (hn : n ∈ successors) :
    lower.findIdx? (fun y ↦ decide ((xml y).tag = n)) = none := by
  refine List.findIdx?_eq_none_iff.mpr fun y hy ↦ decide_eq_false ?_
  rintro rfl
  exact absurd ((hx.later y).mp hn) (Nat.not_lt.mpr (hlower y hy))

/-- Of the names that a property precedes, the first that any property has is that of the first
property of higher rank. -/
theorem Precedes.findSome?_eq (h : Ranks schema xml rank)
    (hx : Precedes schema xml rank x successors) (hlower : ∀ y ∈ lower, rank y ≤ rank x)
    {y : α} {ys : List α} (hhigher : Rising rank repeated (y :: ys)) (hy : rank x < rank y) :
    (successors.findSome? fun n ↦ (lower ++ y :: ys).findIdx? fun z ↦ decide ((xml z).tag = n)) =
      some lower.length := by
  have hmem : (xml y).tag ∈ successors := (hx.later y).mpr hy
  obtain ⟨before, after, hsplit, -⟩ := List.eq_append_cons_of_mem hmem
  have hbefore : ∀ n ∈ before,
      (lower ++ y :: ys).findIdx? (fun z ↦ decide ((xml z).tag = n)) = none := by
    intro n hn
    have hsuccessor : n ∈ successors := by
      rw [hsplit]
      exact List.mem_append_left _ hn
    have hnone : (y :: ys).findIdx? (fun z ↦ decide ((xml z).tag = n)) = none := by
      refine List.findIdx?_eq_none_iff.mpr fun z hz ↦ decide_eq_false ?_
      rintro rfl
      have hsorted := hx.sorted
      rw [hsplit, List.filter_append, List.filter_cons_of_pos (by simpa using h.listed y),
        List.pairwise_append] at hsorted
      have hlt := hsorted.2.2 (xml z).tag (by simp [hn, h.listed z]) (xml y).tag (by simp)
      rw [h.place, h.place] at hlt
      exact Nat.not_lt.mpr (hhigher.le_of_mem hz) hlt
    rw [List.findIdx?_append, hx.findIdx?_lower hlower hsuccessor, hnone]
    rfl
  have hfound : (lower ++ y :: ys).findIdx? (fun z ↦ decide ((xml z).tag = (xml y).tag)) =
      some lower.length := by
    rw [List.findIdx?_append, hx.findIdx?_lower hlower hmem]
    simp [List.findIdx?_cons]
  rw [hsplit, List.findSome?_append, List.findSome?_eq_none_iff.mpr hbefore, Option.none_or,
    List.findSome?_cons, hfound]

/-- Among properties in order, looking for the names that a property precedes finds the place that its
rank tells. -/
theorem insertByName_eq (h : Ranks schema xml rank) (hx : Precedes schema xml rank x successors)
    (hprops : Rising rank repeated props) :
    insertByName (fun y ↦ (xml y).tag) successors x props =
      insertBefore (fun y ↦ decide (rank x < rank y)) x props := by
  obtain ⟨lower, higher, rfl, hlower, hhigher⟩ := hprops.exists_split (rank x)
  rw [insertBefore_between x (fun y hy ↦ by simpa using hlower y hy)
    fun y hy ↦ by simpa using hhigher y hy]
  cases higher with
  | nil =>
    have hnone : (successors.findSome? fun n ↦
        lower.findIdx? fun y ↦ decide ((xml y).tag = n)) = none :=
      List.findSome?_eq_none_iff.mpr fun n hn ↦ hx.findIdx?_lower hlower hn
    simp only [insertByName, List.append_nil, hnone]
  | cons y ys =>
    have hrest : Rising rank repeated (y :: ys) :=
      List.Pairwise.sublist (List.sublist_append_right _ _) hprops
    have hfound := hx.findSome?_eq h hlower hrest (hhigher y List.mem_cons_self)
    simp only [insertByName, hfound, List.take_left, List.drop_left]

end Search

end Ranks

/-! ### The properties of a document -/

theorem ranks_paragraph : Ranks paragraphSchema ParagraphProperty.xml ParagraphProperty.rank where
  distinct := by decide
  listed x := by
    cases x <;>
      simp [ParagraphProperty.xml, shadeXml, Xml.leaf, Xml.node, Xml.tag, Xml.name?,
        paragraphSchema]
  place x := by cases x <;> rfl

theorem ranks_run : Ranks runSchema RunProperty.xml RunProperty.rank where
  distinct := by decide
  listed x := by
    rcases x with (_ | _) | _ | _ | _ | _ | _ | _ <;>
      simp [RunProperty.xml, shadeXml, switchXml, Xml.leaf, Xml.tag, Xml.name?, runSchema]
  place x := by rcases x with (_ | _) | _ | _ | _ | _ | _ | _ <;> rfl

theorem ranks_table : Ranks tableSchema TableProperty.xml TableProperty.rank where
  distinct := by decide
  listed x := by
    rcases x with _ | (_ | _) | _ | _ <;>
      simp [TableProperty.xml, Xml.leaf, Xml.node, Xml.tag, Xml.name?, tableSchema]
  place x := by rcases x with _ | (_ | _) | _ | _ <;> rfl

theorem ranks_cell : Ranks cellSchema CellProperty.xml CellProperty.rank where
  distinct := by decide
  listed x := by
    cases x <;> simp [CellProperty.xml, shadeXml, Xml.leaf, Xml.tag, Xml.name?, cellSchema]
  place x := by cases x <;> rfl

/-- The properties of a paragraph are in order. -/
def Paragraph.InOrder (p : Paragraph) : Prop :=
  Word.InOrder paragraphSchema (p.propertyList.map ParagraphProperty.xml)

/-- The properties of a run are in order. -/
def Run.InOrder (r : Run) : Prop := Word.InOrder runSchema (r.propertyList.map RunProperty.xml)

/-- The properties of a cell are in order. -/
def Cell.InOrder (c : Cell) : Prop := Word.InOrder cellSchema (c.properties.map CellProperty.xml)

/-- The properties of a table and of its cells are in order. -/
def Table.InOrder (t : Table) : Prop :=
  Word.InOrder tableSchema (t.properties.map TableProperty.xml) ∧
    ∀ row ∈ t.rows, ∀ cell ∈ row, cell.InOrder

theorem Paragraph.inOrder_iff {p : Paragraph} :
    p.InOrder ↔ Rising ParagraphProperty.rank 1 p.propertyList := ranks_paragraph.inOrder_iff

theorem Run.inOrder_iff {r : Run} : r.InOrder ↔ Rising RunProperty.rank 6 r.propertyList :=
  ranks_run.inOrder_iff

theorem Cell.inOrder_iff {c : Cell} : c.InOrder ↔ Rising CellProperty.rank 1 c.properties :=
  ranks_cell.inOrder_iff

theorem Table.inOrder_iff {t : Table} : t.InOrder ↔ Rising TableProperty.rank 4 t.properties ∧
    ∀ row ∈ t.rows, ∀ cell ∈ row, cell.InOrder :=
  and_congr_left' ranks_table.inOrder_iff

/-! ### Lists of names -/

/-- The names of the elements that follow the borders of a paragraph. -/
def afterBorders : List String :=
  ["w:shd", "w:tabs", "w:suppressAutoHyphens", "w:kinsoku", "w:wordWrap", "w:overflowPunct",
   "w:topLinePunct", "w:autoSpaceDE", "w:autoSpaceDN", "w:bidi", "w:adjustRightInd",
   "w:snapToGrid", "w:spacing", "w:ind", "w:contextualSpacing", "w:mirrorIndents",
   "w:suppressOverlap", "w:jc", "w:textDirection", "w:textAlignment", "w:textboxTightWrap",
   "w:outlineLvl", "w:divId", "w:cnfStyle", "w:rPr", "w:sectPr", "w:pPrChange"]

/-- The names of the elements that follow the shading of a paragraph. -/
def afterShade : List String := afterBorders.tail

/-- The names of the elements that follow the shading of a run. -/
def afterRunShade : List String :=
  ["w:fitText", "w:vertAlign", "w:rtl", "w:cs", "w:em", "w:lang", "w:eastAsianLayout",
   "w:specVanish", "w:oMath"]

/-- The names of the elements that follow the borders of a table. -/
def afterTableBorders : List String :=
  ["w:shd", "w:tblLayout", "w:tblCellMar", "w:tblLook", "w:tblCaption", "w:tblDescription"]

/-- The names of the elements that follow the width of a table. -/
def afterTableWidth : List String :=
  ["w:jc", "w:tblCellSpacing", "w:tblInd", "w:tblBorders"] ++ afterTableBorders

/-- The names of the elements that follow the shading of a cell. -/
def afterCellShade : List String :=
  ["w:noWrap", "w:tcMar", "w:textDirection", "w:tcFitText", "w:vAlign", "w:hideMark"]

/-- In properties that are in order, looking for the names that follow a new property puts it where
its rank does. -/
structure PlacedByName : Prop where
  borders : ∀ p : Paragraph, p.InOrder → (∀ y ∈ p.propertyList, y.xml.tag ≠ "w:pBdr") → ∀ sides,
    insertByName (·.xml.tag) afterBorders (.borders sides) p.propertyList =
      (ParagraphProperty.borders sides).put p.propertyList
  shade : ∀ p : Paragraph, p.InOrder → ∀ fill,
    insertByName (·.xml.tag) afterShade (.shade fill) p.propertyList =
      (ParagraphProperty.shade fill).add p.propertyList
  runShade : ∀ r : Run, r.InOrder → ∀ fill,
    insertByName (·.xml.tag) afterRunShade (.shade fill) r.propertyList =
      (RunProperty.shade fill).add r.propertyList
  tableWidth : ∀ t : Table, t.InOrder → (∀ y ∈ t.properties, y.xml.tag ≠ "w:tblW") → ∀ extent,
    insertByName (·.xml.tag) afterTableWidth (.width extent) t.properties =
      (TableProperty.width extent).put t.properties
  tableBorders : ∀ t : Table, t.InOrder → ∀ sides,
    insertByName (·.xml.tag) afterTableBorders (.borders sides) t.properties =
      (TableProperty.borders sides).add t.properties
  cellShade : ∀ c : Cell, c.InOrder → ∀ fill,
    insertByName (·.xml.tag) afterCellShade (.shade fill) c.properties =
      (CellProperty.shade fill).add c.properties

/-- A property of a kind that there is none of is put where a new one is. -/
theorem putProperty_of_none {α : Type} {isKind follows : α → Bool} {x : α} {props : List α}
    (h : ∀ y ∈ props, isKind y = false) :
    putProperty isKind follows x props = insertBefore follows x props := by
  rw [putProperty, if_neg]
  simpa using h

theorem placedByName : PlacedByName where
  borders p hp hnone sides := by
    have hplace := ranks_paragraph.precedes (k := 0) (x := .borders sides) rfl
      (by decide +kernel : afterBorders.filter _ = _)
    rw [ParagraphProperty.put, putProperty_of_none]
    · exact insertByName_eq ranks_paragraph hplace (Paragraph.inOrder_iff.mp hp)
    · exact fun y hy ↦ decide_eq_false fun hrank ↦
        hnone y hy (ranks_paragraph.tag_eq_iff.mpr hrank)
  shade p hp fill :=
    insertByName_eq ranks_paragraph (ranks_paragraph.precedes (k := 1) rfl (by decide +kernel))
      (Paragraph.inOrder_iff.mp hp)
  runShade r hr fill :=
    insertByName_eq ranks_run (ranks_run.precedes (k := 6) rfl (by decide +kernel))
      (Run.inOrder_iff.mp hr)
  tableWidth t ht hnone extent := by
    have hplace := ranks_table.precedes (k := 1) (x := .width extent) rfl
      (by decide +kernel : afterTableWidth.filter _ = _)
    rw [TableProperty.put, putProperty_of_none]
    · exact insertByName_eq ranks_table hplace (Table.inOrder_iff.mp ht).1
    · exact fun y hy ↦ decide_eq_false fun hrank ↦ hnone y hy (ranks_table.tag_eq_iff.mpr hrank)
  tableBorders t ht sides :=
    insertByName_eq ranks_table (ranks_table.precedes (k := 2) rfl (by decide +kernel))
      (Table.inOrder_iff.mp ht).1
  cellShade c hc fill :=
    insertByName_eq ranks_cell (ranks_cell.precedes (k := 1) rfl (by decide +kernel))
      (Cell.inOrder_iff.mp hc)

end Word

end Folio
