import Folio.Proofs.Style
import Folio.Word.Table

/-!
# What a document shows

The paragraphs of a body in reading order, with those of tables row by row; the runs of a paragraph,
with those in the labels of hyperlinks; and the drawings and hyperlinks among them. Runs with text
draw nothing (`textRun_drawings`, `captionRun_drawings`).
-/

set_option autoImplicit false
set_option relaxedAutoImplicit false

namespace Folio

namespace Word

/-- The drawing that a piece of a run is, if it is one. -/
def RunItem.drawing? : RunItem → Option Drawing
  | .drawing picture => some picture
  | _ => none

@[simp] theorem RunItem.drawing?_text (value : String) (keepSpace : Bool) :
    (RunItem.text value keepSpace).drawing? = none := rfl

@[simp] theorem RunItem.drawing?_tab : RunItem.tab.drawing? = none := rfl

@[simp] theorem RunItem.drawing?_lineBreak : RunItem.lineBreak.drawing? = none := rfl

@[simp] theorem RunItem.drawing?_drawing (picture : Drawing) :
    (RunItem.drawing picture).drawing? = some picture := rfl

/-- The drawings of a run. -/
def Run.drawings (r : Run) : List Drawing := r.items.filterMap RunItem.drawing?

/-- The runs of a piece of a paragraph. -/
def ParagraphItem.runs : ParagraphItem → List Run
  | .run content => [content]
  | .hyperlink _ label => label

/-- The relationship that a piece of a paragraph uses as a hyperlink, if it is one. -/
def ParagraphItem.hyperlinks : ParagraphItem → List Nat
  | .run _ => []
  | .hyperlink id _ => [id]

/-- The drawings of a piece of a paragraph. -/
def ParagraphItem.drawings (x : ParagraphItem) : List Drawing := x.runs.flatMap Run.drawings

namespace Paragraph

/-- The relationships of the hyperlinks of a paragraph. -/
def hyperlinks (p : Paragraph) : List Nat := p.items.flatMap ParagraphItem.hyperlinks

/-- The drawings of a paragraph, those in labels included. -/
def drawings (p : Paragraph) : List Drawing := p.items.flatMap ParagraphItem.drawings

@[simp] theorem hyperlinks_append (p : Paragraph) (items : List ParagraphItem) :
    (p.append items).hyperlinks = p.hyperlinks ++ items.flatMap ParagraphItem.hyperlinks := by
  simp [append, hyperlinks]

@[simp] theorem drawings_append (p : Paragraph) (items : List ParagraphItem) :
    (p.append items).drawings = p.drawings ++ items.flatMap ParagraphItem.drawings := by
  simp [append, drawings]

@[simp] theorem hyperlinks_empty : empty.hyperlinks = [] := rfl

@[simp] theorem drawings_empty : empty.drawings = [] := rfl

end Paragraph

/-- The paragraphs of a part of the body, row by row for a table. -/
def Element.paragraphs : Element → List Paragraph
  | .paragraph content => [content]
  | .table content => content.rows.flatten.map (·.content)

/-- The paragraphs of a body. -/
def paragraphsOf (body : List Element) : List Paragraph := body.flatMap Element.paragraphs

/-- The relationships of the hyperlinks of a body. -/
def hyperlinksOf (body : List Element) : List Nat :=
  (paragraphsOf body).flatMap Paragraph.hyperlinks

/-- The drawings of a body. -/
def drawingsOf (body : List Element) : List Drawing :=
  (paragraphsOf body).flatMap Paragraph.drawings

/-- The relationships that a label draws are those of its drawings. -/
theorem drawnRelationships_eq (runs : List Run) :
    drawnRelationships runs = (runs.flatMap Run.drawings).map (·.relationship) := by
  have hitems : drawnRelationships runs =
      (runs.flatMap (·.items)).filterMap fun x ↦ x.drawing?.map (·.relationship) := by
    unfold drawnRelationships
    congr 1
    funext x
    cases x <;> rfl
  rw [hitems, ← List.map_filterMap, List.filterMap_flatMap]
  rfl

/-! ### Runs with text -/

/-- The pieces that a text stands for draw nothing. -/
theorem itemsFrom_drawings (pending cs : List Char) :
    (Run.itemsFrom pending cs).filterMap RunItem.drawing? = [] := by
  have hflush (ds : List Char) :
      (Run.itemsFrom.flush ds).filterMap RunItem.drawing? = [] := by
    cases ds <;> simp [Run.itemsFrom.flush, Run.textItem]
  induction cs generalizing pending with
  | nil => simp [Run.itemsFrom, hflush]
  | cons c cs ih =>
    rw [Run.itemsFrom]
    split
    · simp only [List.filterMap_append, List.filterMap_cons, hflush, ih, RunItem.drawing?_tab,
        List.append_nil]
    · split
      · simp only [List.filterMap_append, List.filterMap_cons, hflush, ih,
          RunItem.drawing?_lineBreak, List.append_nil]
      · exact ih _

/-- Writing a text adds no drawing to a run. -/
theorem write_leaves_drawings (s : String) : (Run.write s).Leaves Run.drawings := by
  intro r
  have hfitting : ((Run.itemsOf s).takeWhile Run.isCompatibleItem).filterMap RunItem.drawing? =
      [] := by
    have hsub := (List.takeWhile_sublist Run.isCompatibleItem (l := Run.itemsOf s)).filterMap
      RunItem.drawing?
    rw [Run.itemsOf, itemsFrom_drawings] at hsub
    exact List.sublist_nil.mp hsub
  simp [Run.write, Run.drawings, hfitting]

theorem keepingSpace_leaves_drawings : (Change.always Run.keepingSpace).Leaves Run.drawings := by
  intro r
  have hitems := keepingSpace_leaves (f := RunItem.drawing?) (fun _ _ ↦ rfl) r
  simpa [Run.drawings, Function.comp_def] using congrArg (·.filterMap id) hitems

theorem apply_leaves_drawings (style : RunStyle) (codeFont : String) :
    (style.apply codeFont).Leaves Run.drawings :=
  fun r ↦ congrArg (·.filterMap RunItem.drawing?) (style.apply_leaves codeFont r)

end Word

open Word

/-- A run with a text draws nothing. -/
theorem textRun_drawings (settings : Settings) (text : String) (style : RunStyle) :
    (textRun settings text style Run.empty).1.drawings = [] :=
  ((write_leaves_drawings text).all_cons ((apply_leaves_drawings style _).all_cons
    (keepingSpace_leaves_drawings.all_cons Change.all_nil_leaves))) Run.empty

/-- A run with a caption draws nothing. -/
theorem captionRun_drawings (settings : Settings) (alt : String) (style : RunStyle) :
    (captionRun settings alt style Run.empty).1.drawings = [] :=
  ((write_leaves_drawings (caption alt)).all_cons ((apply_leaves_drawings _ _).all_cons
    (keepingSpace_leaves_drawings.all_cons Change.all_nil_leaves))) Run.empty

end Folio
