import Folio.Proofs.SchemaOrder
import Folio.Proofs.Style
import Folio.Render.Block
import Mathlib.Data.List.Basic

/-!
# Changes of properties

Each change of the properties of a paragraph, a run, a table or a cell keeps them in the order of the
schema, whether it comes to its end or stops half way (`Change.Keeps`), and so does any sequence of
changes (`Change.made_keeps`, `properties_in_order`). Drawing the grid of a table leaves one width and
one set of borders (`Table.setGrid_properties`), and drawing it again changes nothing
(`Table.setGrid_setGrid`).
-/

set_option autoImplicit false
set_option relaxedAutoImplicit false

namespace Folio

open Word

namespace Word

/-! ### Changes of a paragraph -/

namespace Paragraph

variable {p : Paragraph}

theorem InOrder.put (h : p.InOrder) (x : ParagraphProperty) : (p.editProperties x.put).InOrder :=
  inOrder_iff.mpr ((inOrder_iff.mp h).putProperty x)

theorem keeps_addShade (fill : String) : (addShade fill).Keeps InOrder := by
  intro p hp
  unfold addShade
  split
  · exact inOrder_iff.mpr ((inOrder_iff.mp hp).insertBefore (.inl rfl))
  · exact hp

theorem keeps_addBorder (side color : String) (size : Int) :
    (addBorder side color size).Keeps InOrder := by
  intro p hp
  unfold addBorder
  dsimp only
  split <;> exact hp.put _

theorem keeps_setLeftIndent (emu : Int) : (setLeftIndent emu).Keeps InOrder := by
  intro p hp
  unfold setLeftIndent
  dsimp only
  split <;> exact hp.put _

theorem keeps_setHanging (emu : Int) : (setHanging emu).Keeps InOrder := fun _ hp ↦ hp.put _

theorem keeps_hangingIndent (level : Int) : (hangingIndent level).Keeps InOrder := by
  unfold hangingIndent
  split
  · exact fun _ hp ↦ hp
  · exact (keeps_setLeftIndent _).all_cons ((keeps_setHanging _).all_cons Change.all_nil_keeps)

end Paragraph

/-! ### The spacing of a paragraph -/

section Put

variable {α β : Type} {isKind follows : α → Bool} {x : α}

/-- Of two properties of a kind that are put one after the other, the second stays. -/
theorem putProperty_putProperty (hx : isKind x = true) (y : α) (props : List α) :
    putProperty isKind follows y (putProperty isKind follows x props) =
      putProperty isKind follows y props := by
  by_cases hany : props.any isKind = true
  · have hreplaced : (replaceFirst isKind x props).any isKind = true ∧
        replaceFirst isKind y (replaceFirst isKind x props) = replaceFirst isKind y props := by
      induction props with
      | nil => cases hany
      | cons z zs ih =>
        by_cases hz : isKind z = true
        · simp [replaceFirst, hz, hx]
        · rw [List.any_cons, Bool.eq_false_of_not_eq_true hz, Bool.false_or] at hany
          simp [replaceFirst, hz, ih hany]
    simp only [putProperty, hany, hreplaced, ↓reduceIte]
  · have hinserted : (insertBefore follows x props).any isKind = true ∧
        replaceFirst isKind y (insertBefore follows x props) = insertBefore follows y props := by
      induction props with
      | nil => simp [replaceFirst, hx]
      | cons z zs ih =>
        rw [List.any_cons, Bool.or_eq_true, not_or] at hany
        by_cases hfollows : follows z = true
        · simp [insertBefore_cons, hfollows, replaceFirst, hx]
        · simp [insertBefore_cons, hfollows, replaceFirst, hany.1, ih hany.2]
    simp only [putProperty, hany, hinserted, ↓reduceIte, Bool.false_eq_true]

/-- What is read off the properties of a kind is read off the one that has been put. -/
theorem findSome?_putProperty {f : α → Option β} (hf : ∀ y, isKind y = false → f y = none) {b : β}
    (hx : f x = some b) (props : List α) :
    (putProperty isKind follows x props).findSome? f = some b := by
  unfold putProperty
  split
  · next hany =>
    induction props with
    | nil => cases hany
    | cons z zs ih =>
      by_cases hz : isKind z = true
      · simp [replaceFirst, hz, hx]
      · rw [List.any_cons, Bool.eq_false_of_not_eq_true hz, Bool.false_or] at hany
        simp [replaceFirst, hz, hf z (Bool.eq_false_of_not_eq_true hz), ih hany]
  · next hany =>
    induction props with
    | nil => simp [hx]
    | cons z zs ih =>
      rw [List.any_cons, Bool.or_eq_true, not_or] at hany
      rw [insertBefore_cons]
      split
      · simp [hx]
      · simp [hf z (Bool.eq_false_of_not_eq_true hany.1), ih hany.2]

end Put

/-- The spacing in a sequence of properties. -/
def ParagraphProperty.spacingIn (props : List ParagraphProperty) : Spacing :=
  (props.findSome? fun
    | spacing space => some space
    | _ => none).getD ⟨none, none, false⟩

namespace Paragraph

/-- Changes the spacing of a paragraph. -/
def editSpacing (f : Spacing → Spacing) : Change Paragraph := .always fun p ↦
  p.editProperties (ParagraphProperty.spacing (f (ParagraphProperty.spacingIn p.propertyList))).put

theorem editSpacing_editSpacing (f g : Spacing → Spacing) (p : Paragraph) :
    (editSpacing g (editSpacing f p).1).1 = (editSpacing (g ∘ f) p).1 := by
  have hread (space : Spacing) (props : List ParagraphProperty) :
      ParagraphProperty.spacingIn ((ParagraphProperty.spacing space).put props) = space := by
    unfold ParagraphProperty.spacingIn ParagraphProperty.put
    rw [findSome?_putProperty (b := space), Option.getD_some]
    · intro y hy
      have hrank : y.rank ≠ 2 := of_decide_eq_false hy
      cases y with
      | spacing other => exact absurd rfl hrank
      | _ => rfl
    · rfl
  have hput (first second : Spacing) (props : List ParagraphProperty) :
      (ParagraphProperty.spacing second).put ((ParagraphProperty.spacing first).put props) =
        (ParagraphProperty.spacing second).put props :=
    putProperty_putProperty (by rfl) _ _
  simp only [editSpacing, Change.always_apply, editProperties, propertyList, Option.getD_some,
    hread, hput, Function.comp_apply]

/-- Setting the spacing sets the space before, the space after and the line spacing one after the
other. -/
theorem setSpacing_eq (before after : Int) : setSpacing before after = Change.all [
    editSpacing fun s ↦ { s with before := some (twips before) },
    editSpacing fun s ↦ { s with after := some (twips after) },
    editSpacing fun s ↦ { s with singleLine := true }] := by
  have hall (f g h : Spacing → Spacing) (p : Paragraph) :
      Change.all [editSpacing f, editSpacing g, editSpacing h] p = editSpacing (h ∘ g ∘ f) p := by
    have hsteps : Change.all [editSpacing f, editSpacing g, editSpacing h] p =
        ((editSpacing h (editSpacing g (editSpacing f p).1).1).1, none) := rfl
    rw [hsteps, editSpacing_editSpacing, editSpacing_editSpacing]
    rfl
  funext p
  rw [hall]
  rfl

theorem keeps_editSpacing (f : Spacing → Spacing) : (editSpacing f).Keeps InOrder :=
  fun _ hp ↦ hp.put _

theorem keeps_setSpacing (before after : Int) : (setSpacing before after).Keeps InOrder := by
  rw [setSpacing_eq]
  exact (keeps_editSpacing _).all_cons
    ((keeps_editSpacing _).all_cons ((keeps_editSpacing _).all_cons Change.all_nil_keeps))

end Paragraph

/-! ### Changes of a run -/

namespace Run

variable {r : Run}

theorem InOrder.put (h : r.InOrder) (x : RunProperty) : (r.editProperties x.put).InOrder :=
  inOrder_iff.mpr ((inOrder_iff.mp h).putProperty x)

theorem keeps_setProperty (x : RunProperty) : (setProperty x).Keeps InOrder := fun _ hr ↦ hr.put x

/-- Leaving an empty property behind, if there is none of its kind, keeps properties in order. -/
theorem InOrder.putUnless (h : r.InOrder) (p : RunProperty → Bool) (x : RunProperty) :
    (r.editProperties fun props ↦ if props.any p then props else x.put props).InOrder := by
  refine inOrder_iff.mpr ?_
  show Rising _ _ (if r.propertyList.any p then r.propertyList else x.put r.propertyList)
  split
  · exact inOrder_iff.mp h
  · exact inOrder_iff.mp (h.put x)

theorem keeps_setFont (name : String) : (setFont name).Keeps InOrder := by
  intro r hr
  unfold setFont
  split
  · exact hr.put _
  · exact hr.putUnless _ _

theorem keeps_setColor (color : String) : (setColor color).Keeps InOrder := by
  intro r hr
  unfold setColor
  split
  · exact hr.put _
  · exact hr

theorem keeps_setSize (size : Int) : (setSize size).Keeps InOrder := by
  intro r hr
  unfold setSize
  split
  · exact hr
  · split
    · exact hr.put _
    · exact hr.putUnless _ _

theorem keeps_addShade (fill : String) : (addShade fill).Keeps InOrder := by
  intro r hr
  unfold addShade
  split
  · exact inOrder_iff.mpr ((inOrder_iff.mp hr).insertBefore (.inl rfl))
  · exact hr

end Run

/-! ### Changes of a table -/

section Keep

variable {α : Type} {isKind follows p : α → Bool} {x : α}

/-- A property that is the first of its kind is put where it is. -/
theorem putProperty_eq_self {props : List α} (h : props.find? isKind = some x) :
    putProperty isKind follows x props = props := by
  have hany : props.any isKind = true :=
    List.any_eq_true.mpr ⟨x, List.mem_of_find?_eq_some h, List.find?_some h⟩
  rw [putProperty, if_pos hany]
  clear hany
  induction props with
  | nil => cases h
  | cons y ys ih =>
    rw [List.find?_cons] at h
    rw [replaceFirst]
    split at h
    · next hy =>
      obtain rfl := Option.some.inj h
      rw [if_pos hy]
    · next hy => rw [if_neg (by simp [hy]), ih h]

theorem filter_insertBefore (hx : p x = false) (props : List α) :
    (insertBefore follows x props).filter p = props.filter p := by
  induction props with
  | nil => simp [hx]
  | cons y ys ih =>
    rw [insertBefore_cons]
    split
    · rw [List.filter_cons_of_neg (by simp [hx])]
    · rw [List.filter_cons, List.filter_cons, ih]

theorem insertBefore_perm (follows : α → Bool) (x : α) (props : List α) :
    (insertBefore follows x props).Perm (x :: props) := by
  induction props with
  | nil => exact List.Perm.refl _
  | cons y ys ih =>
    rw [insertBefore_cons]
    split
    · exact List.Perm.refl _
    · exact (ih.cons y).trans (List.Perm.swap x y ys)

end Keep

namespace Table

variable {t : Table}

theorem InOrder.put (h : t.InOrder) (x : TableProperty) :
    ({ t with properties := x.put t.properties } : Table).InOrder :=
  inOrder_iff.mpr ⟨(inOrder_iff.mp h).1.putProperty x, h.2⟩

theorem InOrder.without (h : t.InOrder) (rank : Nat) :
    ({ t with properties := TableProperty.without rank t.properties } : Table).InOrder :=
  inOrder_iff.mpr ⟨(inOrder_iff.mp h).1.filter _, h.2⟩

/-- The properties of a table of full width without borders. -/
def bareProperties (t : Table) : List TableProperty :=
  TableProperty.without 2 ((TableProperty.width .full).put t.properties)

theorem rank_ne_of_mem_bareProperties {y : TableProperty} (hy : y ∈ t.bareProperties) :
    y.rank ≠ 2 := by
  simpa using (List.mem_filter.mp hy).2

theorem keeps_setGrid (color : String) : (setGrid color).Keeps InOrder := by
  intro t ht
  have hbare : ({ t with properties := t.bareProperties } : Table).InOrder := (ht.put _).without 2
  unfold setGrid
  dsimp only
  split
  · exact inOrder_iff.mpr ⟨(inOrder_iff.mp hbare).1.insertBefore
      (.inr fun y hy ↦ rank_ne_of_mem_bareProperties hy), ht.2⟩
  · exact hbare

theorem keeps_shadeCell (row column : Nat) (fill : String) :
    (shadeCell row column fill).Keeps InOrder := by
  intro t ht
  unfold shadeCell
  split
  · exact ht
  · next cell hcell =>
    obtain ⟨cells, hrow, hcolumn⟩ := Option.bind_eq_some_iff.mp hcell
    have hcell : (cell.addShade fill).1.InOrder := by
      have hold := ht.2 cells (List.mem_of_getElem? hrow) cell (List.mem_of_getElem? hcolumn)
      unfold Cell.addShade
      split
      · exact Cell.inOrder_iff.mpr ((Cell.inOrder_iff.mp hold).insertBefore (.inl rfl))
      · exact hold
    refine ⟨ht.1, fun changed hchanged other hother ↦ ?_⟩
    obtain ⟨i, hi⟩ := List.mem_iff_getElem?.mp hchanged
    rw [List.getElem?_modify, Option.map_eq_map, Option.map_eq_some_iff] at hi
    obtain ⟨old, hold, rfl⟩ := hi
    have hmem := List.mem_of_getElem? hold
    split at hother
    · rcases List.mem_or_eq_of_mem_set hother with hother | rfl
      · exact ht.2 old hmem other hother
      · exact hcell
    · exact ht.2 old hmem other hother

/-- The width is full, whatever it was. -/
theorem find?_bareProperties (t : Table) :
    t.bareProperties.find? (fun y ↦ decide (y.rank = 1)) = some (.width .full) := by
  have hkept : (fun y : TableProperty ↦ decide (y.rank ≠ 2) && decide (y.rank = 1)) =
      fun y ↦ decide (y.rank = 1) := by
    funext y
    by_cases hy : y.rank = 1 <;> simp [hy]
  rw [bareProperties, TableProperty.without, List.find?_filter]
  simp only [Bool.decide_and, Bool.decide_eq_true, hkept]
  rw [List.find?_eq_findSome?_guard]
  refine findSome?_putProperty (fun y hy ↦ ?_) (by rfl) _
  have hrank : y.rank ≠ 1 := of_decide_eq_false hy
  exact if_neg (by simpa using hrank)

theorem filter_bareProperties (t : Table) :
    t.bareProperties.filter (fun y ↦ decide (y.rank ≠ 2)) = t.bareProperties :=
  List.filter_eq_self.mpr fun _ hy ↦ decide_eq_true (rank_ne_of_mem_bareProperties hy)

/-- A table of full width is bare without its borders. -/
theorem bareProperties_eq_without {props : List TableProperty}
    (h : props.find? (fun y ↦ decide (y.rank = 1)) = some (.width .full)) (t : Table) :
    ({ t with properties := props } : Table).bareProperties = TableProperty.without 2 props :=
  congrArg (TableProperty.without 2) (putProperty_eq_self h)

/-- The properties of a bare table with borders. -/
def borderedProperties (color : String) (t : Table) : List TableProperty :=
  (TableProperty.borders (gridBorders color)).add t.bareProperties

theorem find?_borderedProperties (color : String) (t : Table) :
    (t.borderedProperties color).find? (fun y ↦ decide (y.rank = 1)) = some (.width .full) := by
  rw [← List.head?_filter, borderedProperties, TableProperty.add, filter_insertBefore (by rfl),
    List.head?_filter, find?_bareProperties]

theorem setGrid_eq (color : String) (t : Table) : setGrid color t =
    ({ t with properties :=
      if isCompatibleText color then t.borderedProperties color else t.bareProperties },
      textFailure? color) := by
  unfold setGrid textFailure?
  cases isCompatibleText color <;> rfl

/-- Drawing a grid again changes nothing. -/
theorem setGrid_setGrid (color : String) (t : Table) :
    setGrid color (setGrid color t).1 = setGrid color t := by
  have hbare : (setGrid color t).1.bareProperties = t.bareProperties := by
    rw [setGrid_eq]
    dsimp only
    split
    · rw [bareProperties_eq_without (find?_borderedProperties color t), TableProperty.without,
        borderedProperties, TableProperty.add, filter_insertBefore (by rfl),
        filter_bareProperties]
    · rw [bareProperties_eq_without (find?_bareProperties t), TableProperty.without,
        filter_bareProperties]
  have hbordered : (setGrid color t).1.borderedProperties color = t.borderedProperties color := by
    rw [borderedProperties, hbare, borderedProperties]
  rw [setGrid_eq color (setGrid color t).1, hbare, hbordered, setGrid_eq]

/-- A grid that is drawn leaves exactly one width and one set of borders. -/
theorem setGrid_properties {color : String} (h : isCompatibleText color = true)
    (ht : t.InOrder) :
    (setGrid color t).1.properties.filter (fun y ↦ decide (y.xml.tag = "w:tblW")) =
        [.width .full] ∧
      (setGrid color t).1.properties.filter (fun y ↦ decide (y.xml.tag = "w:tblBorders")) =
        [.borders (gridBorders color)] := by
  have hproperties : (setGrid color t).1.properties = t.borderedProperties color := by
    rw [setGrid_eq, if_pos h]
  have hrising := (inOrder_iff.mp (keeps_setGrid color t ht)).1
  rw [hproperties] at hrising ⊢
  simp only [ranks_table.tag_eq_iff]
  constructor
  · have hrank : (TableProperty.width .full).rank ≠ 4 := by decide
    exact hrising.filter_eq_singleton hrank (find?_borderedProperties color t)
  · have hnone : t.bareProperties.filter (fun y ↦ decide (y.rank = 2)) = [] :=
      List.filter_eq_nil_iff.mpr fun y hy ↦ by simpa using rank_ne_of_mem_bareProperties hy
    have hperm := (insertBefore_perm (fun y ↦ decide (2 < y.rank))
      (.borders (gridBorders color)) t.bareProperties).filter fun y ↦ decide (y.rank = 2)
    rw [List.filter_cons_of_pos (by rfl), hnone] at hperm
    exact List.perm_singleton.mp hperm

end Table

end Word

/-! ### Sequences of changes -/

namespace Change

variable {α : Type} {P : α → Prop}

/-- What changes leave that are made one after the other, whether or not those before have come to
their end. -/
def made (changes : List (Change α)) (x : α) : α := changes.foldl (fun y c ↦ (c y).1) x

/-- What each change keeps is kept by all of them. -/
theorem made_keeps {changes : List (Change α)} (h : ∀ c ∈ changes, c.Keeps P) {x : α} (hx : P x) :
    P (made changes x) := by
  induction changes generalizing x with
  | nil => exact hx
  | cons c cs ih =>
    obtain ⟨hc, hcs⟩ := List.forall_mem_cons.mp h
    exact ih hcs (hc x hx)

theorem Keeps.when {c : Change α} (hc : c.Keeps P) (condition : Bool) :
    (when condition c).Keeps P := by
  intro x hx
  cases condition
  · exact hx
  · exact hc x hx

end Change

/-- Applying a style to a run keeps the properties of the run in order. -/
theorem RunStyle.apply_keeps (style : RunStyle) (codeFont : String) :
    (style.apply codeFont).Keeps Run.InOrder := by
  have hgiven {change : String → Change Run} (h : ∀ s, (change s).Keeps Run.InOrder)
      (text : Option String) : (apply.ifGiven text change).Keeps Run.InOrder := by
    cases text with
    | none => exact fun _ hr ↦ hr
    | some s => exact (h s).when _
  have hsize (size : Option Int) : (apply.sizeChange size).Keeps Run.InOrder := by
    cases size with
    | none => exact fun _ hr ↦ hr
    | some n => exact (Run.keeps_setSize n).when _
  exact (Run.keeps_setProperty _).all_cons ((Run.keeps_setProperty _).all_cons
    (((Run.keeps_setProperty _).when _).all_cons (((Run.keeps_setFont codeFont).when _).all_cons
    ((hgiven Run.keeps_setColor _).all_cons ((hsize _).all_cons
    ((hgiven Run.keeps_addShade _).all_cons Change.all_nil_keeps))))))

/-- A change of the properties of a paragraph. -/
inductive ParagraphEdit
  | shade (fill : String)
  | border (side color : String) (size : Int)
  | hangingIndent (level : Int)
  | leftIndent (emu : Int)
  | codeSpacing (before after : Int)
  | spacing (f : Spacing → Spacing)

/-- What an edit of a paragraph does. -/
def ParagraphEdit.change : ParagraphEdit → Change Paragraph
  | shade fill => Paragraph.addShade fill
  | border side color size => Paragraph.addBorder side color size
  | hangingIndent level => Folio.hangingIndent level
  | leftIndent emu => Paragraph.setLeftIndent emu
  | codeSpacing before after => Paragraph.setSpacing before after
  | spacing f => Paragraph.editSpacing f

theorem ParagraphEdit.keeps (edit : ParagraphEdit) : edit.change.Keeps Paragraph.InOrder := by
  cases edit with
  | shade fill => exact Paragraph.keeps_addShade fill
  | border side color size => exact Paragraph.keeps_addBorder side color size
  | hangingIndent level => exact Paragraph.keeps_hangingIndent level
  | leftIndent emu => exact Paragraph.keeps_setLeftIndent emu
  | codeSpacing before after => exact Paragraph.keeps_setSpacing before after
  | spacing f => exact Paragraph.keeps_editSpacing f

/-- A change of the properties of a table or of its cells. -/
inductive TableEdit
  | style (name : String)
  | grid (color : String)
  | shadeCell (row column : Nat) (fill : String)
  | dropWidth

/-- What an edit of a table does. -/
def TableEdit.change : TableEdit → Change Table
  | style name => .always (Table.withStyle name)
  | grid color => Table.setGrid color
  | shadeCell row column fill => Table.shadeCell row column fill
  | dropWidth => .always Table.dropWidth

theorem TableEdit.keeps (edit : TableEdit) : edit.change.Keeps Table.InOrder := by
  cases edit with
  | style name => exact fun _ ht ↦ ht.put _
  | grid color => exact Table.keeps_setGrid color
  | shadeCell row column fill => exact Table.keeps_shadeCell row column fill
  | dropWidth => exact fun _ ht ↦ ht.without 1

/-- A new table is in order. -/
theorem Word.Table.inOrder_ofSize (rows columns : Nat) : (Table.ofSize rows columns).InOrder := by
  refine Table.inOrder_iff.mpr ⟨by simp [Table.ofSize, Rising, TableProperty.rank], ?_⟩
  intro row hrow cell hcell
  rw [List.eq_of_mem_replicate hrow] at hcell
  rw [List.eq_of_mem_replicate hcell]
  exact Cell.inOrder_iff.mpr (List.pairwise_singleton _ _)

/-- The properties of paragraphs, runs, tables and cells stand in the order of the schema, with only
shadings repeated, after any changes of them in any number and order, as they do in new ones. Drawing
a grid twice is drawing it once, and leaves one width and one set of borders whatever there was
before. The lists of names by which new properties are placed tell the places that ranks tell. -/
theorem properties_in_order :
    (∀ (edits : List ParagraphEdit) (p : Paragraph), p.InOrder →
      (Change.made (edits.map ParagraphEdit.change) p).InOrder) ∧
    (∀ (styles : List (RunStyle × String)) (r : Run), r.InOrder →
      (Change.made (styles.map fun s ↦ s.1.apply s.2) r).InOrder) ∧
    (∀ (edits : List TableEdit) (t : Table), t.InOrder →
      (Change.made (edits.map TableEdit.change) t).InOrder) ∧
    (Paragraph.empty.InOrder ∧ Run.empty.InOrder ∧
      ∀ rows columns, (Table.ofSize rows columns).InOrder) ∧
    (∀ (color : String) (t : Table),
      Table.setGrid color (Table.setGrid color t).1 = Table.setGrid color t ∧
      (isCompatibleText color = true → t.InOrder →
        (Table.setGrid color t).1.properties.filter (·.xml.tag = "w:tblW") = [.width .full] ∧
        (Table.setGrid color t).1.properties.filter (·.xml.tag = "w:tblBorders") =
          [.borders (Table.gridBorders color)])) ∧
    PlacedByName := by
  refine ⟨fun edits p ↦ Change.made_keeps ?_, fun styles r ↦ Change.made_keeps ?_,
    fun edits t ↦ Change.made_keeps ?_, ⟨?_, ?_, Table.inOrder_ofSize⟩,
    fun color t ↦ ⟨Table.setGrid_setGrid color t, Table.setGrid_properties⟩, placedByName⟩
  · exact List.forall_mem_map.mpr fun edit _ ↦ edit.keeps
  · exact List.forall_mem_map.mpr fun s _ ↦ s.1.apply_keeps s.2
  · exact List.forall_mem_map.mpr fun edit _ ↦ edit.keeps
  · exact Paragraph.inOrder_iff.mpr .nil
  · exact Run.inOrder_iff.mpr .nil

/-- Edits that come in another order than that of the schema, some of them twice. -/
def shuffledEdits : List ParagraphEdit :=
  [.hangingIndent 2, .shade "F2F2F2", .spacing fun s ↦ { s with before := some 120 },
    .border "left" "A6A6A6" 12, .shade "D9D9D9", .hangingIndent 1, .border "bottom" "A6A6A6" 6]

theorem properties_in_order_shuffledEdits :
    Paragraph.empty.InOrder ∧
      (Change.made (shuffledEdits.map ParagraphEdit.change) .empty).InOrder ∧
      (Change.made (shuffledEdits.map ParagraphEdit.change) .empty).propertyList.map (·.xml.tag) =
        ["w:pBdr", "w:shd", "w:shd", "w:spacing", "w:ind"] ∧
      isCompatibleText "auto" = true ∧ (Table.ofSize 2 3).dropWidth.InOrder ∧
      (Table.setGrid "auto" (Table.ofSize 2 3).dropWidth).1.properties.filter
        (·.xml.tag = "w:tblW") = [.width .full] := by
  obtain ⟨hparagraphs, -, htables, ⟨hempty, -, hnew⟩, hgrid, -⟩ := properties_in_order
  have hdropped : (Table.ofSize 2 3).dropWidth.InOrder := htables [.dropWidth] _ (hnew 2 3)
  have hauto : isCompatibleText "auto" = true := by decide
  exact ⟨hempty, hparagraphs shuffledEdits .empty hempty, by decide +kernel, hauto, hdropped,
    ((hgrid "auto" _).2 hauto hdropped).1⟩

end Folio
