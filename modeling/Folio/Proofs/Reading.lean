import Folio.Proofs.Flattening
import Folio.Proofs.Written

/-!
# Reading a document

A paragraph is read run by run, through the labels of hyperlinks: texts as they are, tabs as tabs,
line breaks as line ends (`Paragraph.marks`). The text that it comes from has a reading of its own,
which follows the tree alone (`Passage.pieces`): the characters of its leaves, with one line end for
each way of writing one, the target of a link that has nothing else to show, and for every image
with a source a place that is taken by a drawing or by the caption. `paragraphs_read` says that
nothing is lost, added or moved: a document reads, paragraph for paragraph, as its text.
-/

set_option autoImplicit false
set_option relaxedAutoImplicit false

namespace Folio

open Word

/-! ### What a document reads as -/

/-- What is met in reading: a character, or a drawing, which is no text. -/
inductive Mark
  | char (c : Char)
  | drawing (picture : Drawing)
  deriving DecidableEq

namespace Word

/-- A piece of a run as it is read. -/
def RunItem.marks : RunItem → List Mark
  | .text value _ => value.toList.map .char
  | .tab => [.char '\t']
  | .lineBreak => [.char '\n']
  | .drawing picture => [.drawing picture]

/-- A run as it is read. -/
def Run.marks (r : Run) : List Mark := r.items.flatMap RunItem.marks

/-- A piece of a paragraph as it is read. -/
def ParagraphItem.marks (x : ParagraphItem) : List Mark := x.runs.flatMap Run.marks

/-- A paragraph as it is read. -/
def Paragraph.marks (p : Paragraph) : List Mark := p.items.flatMap ParagraphItem.marks

end Word

/-! ### What a text reads as -/

/-- What a text consists of for a reader: characters, and images by their alternative texts. -/
inductive Piece
  | char (c : Char)
  | image (alt : String)

/-- A character as it is read: a carriage return is a line end like any other. -/
def readChar (c : Char) : Char := if c = '\r' then '\n' else c

/-- The pieces of a string. -/
def textPieces (s : String) : List Piece := s.toList.map fun c ↦ .char (readChar c)

mutual

/-- The pieces of a piece of inline content. -/
def Inline.pieces : Inline → List Piece
  | .text content => textPieces content
  | .emphasis _ children => piecesOf children
  | .code content => textPieces content
  | .lineBreak => [.char '\n']
  | .image url title content =>
    if isBlankText url then textPieces (caption (altText title content))
    else [.image (altText title content)]
  | .link url _ children =>
    if isBlankText url || anyVisible children then piecesOf children else textPieces url
  | .unknown => []

/-- The pieces of inline content. -/
def piecesOf : List Inline → List Piece
  | [] => []
  | x :: xs => x.pieces ++ piecesOf xs

end

/-- The pieces of a passage. -/
def Passage.pieces : Passage → List Piece
  | .heading _ content => piecesOf content
  | .paragraph content => piecesOf content
  | .itemStart _ mark content => textPieces mark ++ piecesOf content
  | .codeLine _ _ line => textPieces line
  | .quoted content => piecesOf content
  | .rule => []
  | .cell _ content => piecesOf content
  | .spacer => []

/-- Pieces read as marks: each character as itself, and each image as one drawing or as its
caption. -/
inductive Renders : List Piece → List Mark → Prop
  | nil : Renders [] []
  | char {ps : List Piece} {ms : List Mark} (c : Char) (h : Renders ps ms) :
      Renders (.char c :: ps) (.char c :: ms)
  | drawn {ps : List Piece} {ms : List Mark} (alt : String) (picture : Drawing)
      (h : Renders ps ms) : Renders (.image alt :: ps) (.drawing picture :: ms)
  | captioned {ps : List Piece} {ms : List Mark} (alt : String) (h : Renders ps ms) :
      Renders (.image alt :: ps) ((caption alt).toList.map (fun c ↦ .char (readChar c)) ++ ms)

namespace Renders

theorem append {ps qs : List Piece} {ms ns : List Mark} (h : Renders ps ms)
    (hrest : Renders qs ns) : Renders (ps ++ qs) (ms ++ ns) := by
  induction h with
  | nil => exact hrest
  | char c _ ih => exact .char c ih
  | drawn alt picture _ ih => exact .drawn alt picture ih
  | captioned alt _ ih =>
    rw [List.cons_append, List.append_assoc]
    exact .captioned alt ih

/-- A string reads as its characters. -/
theorem text (s : String) :
    Renders (textPieces s) (s.toList.map fun c ↦ .char (readChar c)) := by
  unfold textPieces
  induction s.toList with
  | nil => exact .nil
  | cons c cs ih => exact .char _ ih

/-- If every step of a sequence writes what the pieces of its element read as, then the sequence
writes what all the pieces read as. -/
theorem forEach {α ω : Type} {pieces : α → List Piece} {view : ω → List Mark}
    {step : α → Step ω Unit} {as : List α}
    (h : ∀ a ∈ as, ∀ s, (step a s).result = .ok () →
      Renders (pieces a) ((step a s).written.flatMap view)) (s : RenderState)
    (hok : (Step.forEach step as s).result = .ok ()) :
    Renders (as.flatMap pieces) ((Step.forEach step as s).written.flatMap view) :=
  Step.relates_forEach (I := fun _ ↦ True) .nil (fun h h' ↦ h.append h') (fun _ _ _ _ ↦ trivial)
    (fun a ha s _ ↦ h a ha s) trivial hok

end Renders

/-! ### Runs -/

/-- The pieces that a text stands for read as the text. -/
theorem itemsFrom_marks (pending cs : List Char) (hpending : ∀ c ∈ pending, readChar c = c) :
    (Run.itemsFrom pending cs).flatMap RunItem.marks =
      (pending.reverse ++ cs.map readChar).map .char := by
  have hflush (ds : List Char) :
      (Run.itemsFrom.flush ds).flatMap RunItem.marks = ds.reverse.map .char := by
    cases ds with
    | nil => rfl
    | cons d ds => simp [Run.itemsFrom.flush, Run.textItem, RunItem.marks]
  induction cs generalizing pending with
  | nil => simp [Run.itemsFrom, hflush]
  | cons c cs ih =>
    rw [Run.itemsFrom]
    split
    · next htab =>
      simp [hflush, ih [] (by simp), RunItem.marks, htab, readChar]
    · split
      · next hline =>
        have hread : readChar c = '\n' := by
          rcases (by simpa using hline : c = '\n' ∨ c = '\r') with rfl | rfl <;> decide
        simp [hflush, ih [] (by simp), RunItem.marks, hread]
      · next hline =>
        have hread : readChar c = c := by
          have hreturn : c ≠ '\r' := fun hc ↦ hline (by simp [hc])
          simp [readChar, hreturn]
        rw [ih (c :: pending) (by simpa [hread] using hpending)]
        simp [hread]

/-- The pieces that a text stands for read as the text. -/
theorem itemsOf_marks (s : String) :
    (Run.itemsOf s).flatMap RunItem.marks = s.toList.map fun c ↦ .char (readChar c) := by
  rw [Run.itemsOf, itemsFrom_marks [] _ (by simp)]
  simp

/-- A text that XML can hold is written into an empty run as a whole. -/
theorem write_marks {s : String} {r : Run} (hr : r.items = []) (h : (Run.write s r).2 = none) :
    (Run.write s r).1.marks = s.toList.map fun c ↦ .char (readChar c) := by
  have hlength : ((Run.itemsOf s).takeWhile Run.isCompatibleItem).length =
      (Run.itemsOf s).length := by
    by_contra hne
    simp [Run.write, hne] at h
  have hall := (List.takeWhile_prefix (p := Run.isCompatibleItem)).eq_of_length hlength
  simp only [Run.write, Run.marks, hr, hall, List.nil_append, itemsOf_marks]

/-- Changes that leave what a run reads as, after one that succeeds. -/
theorem marks_of_all {c : Change Run} {cs : List (Change Run)} {r : Run} {ms : List Mark}
    (hc : (c r).2 = none → (c r).1.marks = ms) (hcs : (Change.all cs).Leaves Run.marks)
    (h : (Change.all (c :: cs) r).2 = none) : (Change.all (c :: cs) r).1.marks = ms := by
  rcases hfirst : c r with ⟨q, _ | e⟩
  · simp only [Change.all_cons, Change.andThen, hfirst]
    rw [hcs q]
    simpa [hfirst] using hc
  · simp [Change.andThen, hfirst] at h

/-- Applying a style and keeping blanks leave what a run reads as. -/
theorem styling_leaves_marks (style : RunStyle) (codeFont : String) :
    (Change.all [style.apply codeFont, .always Run.keepingSpace]).Leaves Run.marks := by
  have happly : (style.apply codeFont).Leaves Run.marks :=
    fun r ↦ congrArg (·.flatMap RunItem.marks) (style.apply_leaves codeFont r)
  have hkeep : (Change.always Run.keepingSpace).Leaves Run.marks := by
    intro r
    have hitems := keepingSpace_leaves (f := RunItem.marks) (fun _ _ ↦ rfl) r
    simpa [Run.marks, List.flatMap_def] using congrArg List.flatten hitems
  exact happly.all_cons (hkeep.all_cons Change.all_nil_leaves)

/-- A run with a text reads as the text. -/
theorem textRun_marks {settings : Settings} {text : String} {style : RunStyle}
    (h : (textRun settings text style Run.empty).2 = none) :
    (textRun settings text style Run.empty).1.marks =
      text.toList.map fun c ↦ .char (readChar c) :=
  marks_of_all (write_marks rfl) (styling_leaves_marks style _) h

/-- A run with a caption reads as the caption. -/
theorem captionRun_marks {settings : Settings} {alt : String} {style : RunStyle}
    (h : (captionRun settings alt style Run.empty).2 = none) :
    (captionRun settings alt style Run.empty).1.marks =
      (caption alt).toList.map fun c ↦ .char (readChar c) :=
  marks_of_all (write_marks rfl) (styling_leaves_marks _ _) h

/-! ### Fragments -/

/-- The pieces of a fragment. -/
def Fragment.pieces : Fragment → List Piece
  | .text content _ => textPieces content
  | .lineBreak => [.char '\n']
  | .image url alt _ => if isBlankText url then textPieces (caption alt) else [.image alt]

/-- A run that a fragment is written as reads as the fragment does. -/
theorem Fragment.IsWrittenAs.renders {settings : Settings} {f : Fragment} {r : Run}
    (h : f.IsWrittenAs settings r) : Renders f.pieces r.marks := by
  cases f with
  | text content style =>
    have hmarks := textRun_marks (congrArg Prod.snd h)
    rw [congrArg Prod.fst h] at hmarks
    rw [hmarks]
    exact Renders.text content
  | lineBreak =>
    rw [h]
    exact .char _ .nil
  | image url alt style =>
    rcases h with ⟨hurl, d, rfl⟩ | hcaption
    · rw [Fragment.pieces, hurl]
      exact .drawn alt d .nil
    · have hmarks := captionRun_marks (congrArg Prod.snd hcaption)
      rw [congrArg Prod.fst hcaption] at hmarks
      rw [hmarks, Fragment.pieces]
      split
      · exact Renders.text (caption alt)
      · simpa using Renders.captioned alt .nil

/-- Writing a fragment gives what its pieces read as. -/
theorem Fragment.write_renders {env : Surroundings} {s : RenderState} {attached : Bool}
    {f : Fragment} (h : (f.write env attached s).result = .ok ()) :
    Renders f.pieces ((f.write env attached s).written.flatMap Run.marks) := by
  obtain ⟨r, hr, hwritten⟩ := Fragment.written_of_ok h
  simpa [hwritten] using hr.renders

mutual

/-- The fragments of a piece of inline content have its pieces. -/
theorem Inline.flatMap_fragments (settings : Settings) : ∀ (x : Inline) (style : RunStyle),
    (x.fragments settings style).flatMap Fragment.pieces = x.pieces
  | .text content, style => by simp [Inline.fragments, Fragment.pieces, Inline.pieces]
  | .emphasis n children, style => by
    rw [Inline.fragments, Inline.pieces, flatMap_fragmentsOf settings children]
  | .code content, style => by simp [Inline.fragments, Fragment.pieces, Inline.pieces]
  | .lineBreak, style => by simp [Inline.fragments, Fragment.pieces, Inline.pieces]
  | .image url title content, style => by simp [Inline.fragments, Fragment.pieces, Inline.pieces]
  | .link url title children, style => by
    rw [Inline.fragments, Inline.pieces]
    split
    · exact flatMap_fragmentsOf settings children style
    · simp [Fragment.pieces]
  | .unknown, style => rfl

/-- The fragments of inline content have its pieces. -/
theorem flatMap_fragmentsOf (settings : Settings) : ∀ (xs : List Inline) (style : RunStyle),
    (fragmentsOf settings xs style).flatMap Fragment.pieces = piecesOf xs
  | [], style => rfl
  | x :: xs, style => by
    rw [fragmentsOf, piecesOf, List.flatMap_append, Inline.flatMap_fragments settings x,
      flatMap_fragmentsOf settings xs]

end

/-! ### Segments -/

/-- The pieces of a segment. -/
def Segment.pieces : Segment → List Piece
  | .fragment f => f.pieces
  | .link url children _ => if anyVisible children then piecesOf children else textPieces url

/-- The fragments of the label of a link have the pieces of the link. -/
theorem flatMap_labelFragments (settings : Settings) (url : String) (children : List Inline)
    (style style' : RunStyle) :
    (labelFragments settings url children style).flatMap Fragment.pieces =
      (Segment.link url children style').pieces := by
  rw [labelFragments, Segment.pieces]
  split
  · exact flatMap_fragmentsOf settings children style
  · simp [Fragment.pieces]

mutual

/-- The segments of a piece of inline content have its pieces. -/
theorem Inline.flatMap_segments (settings : Settings) : ∀ (x : Inline) (style : RunStyle),
    (x.segments settings style).flatMap Segment.pieces = x.pieces
  | .emphasis n children, style => by
    rw [Inline.segments, Inline.pieces, flatMap_segmentsOf settings children]
  | .link url title children, style => by
    rw [Inline.segments, Inline.pieces]
    split
    · next hblank => simp [hblank, flatMap_segmentsOf settings children style]
    · next hblank => simp [hblank, Segment.pieces]
  | .text content, style => by
    simp [Inline.segments, Inline.fragments, Inline.pieces, Segment.pieces, Fragment.pieces]
  | .code content, style => by
    simp [Inline.segments, Inline.fragments, Inline.pieces, Segment.pieces, Fragment.pieces]
  | .lineBreak, style => by
    simp [Inline.segments, Inline.fragments, Inline.pieces, Segment.pieces, Fragment.pieces]
  | .image url title content, style => by
    simp [Inline.segments, Inline.fragments, Inline.pieces, Segment.pieces, Fragment.pieces]
  | .unknown, style => rfl

/-- The segments of inline content have its pieces. -/
theorem flatMap_segmentsOf (settings : Settings) : ∀ (xs : List Inline) (style : RunStyle),
    (segmentsOf settings xs style).flatMap Segment.pieces = piecesOf xs
  | [], style => rfl
  | x :: xs, style => by
    rw [segmentsOf, piecesOf, List.flatMap_append, Inline.flatMap_segments settings x,
      flatMap_segmentsOf settings xs]

end

section Write

variable {env : Surroundings} {s : RenderState}

/-- Writing the label of a link gives what the link reads as. -/
theorem writeLabel_renders {attached : Bool} {url : String} {children : List Inline}
    {style : RunStyle} (style' : RunStyle)
    (h : (writeLabel env attached url children style s).result = .ok ()) :
    Renders (Segment.link url children style').pieces
      ((writeLabel env attached url children style s).written.flatMap Run.marks) := by
  rw [writeLabel_eq] at h ⊢
  rw [← flatMap_labelFragments env.settings url children style style']
  exact Renders.forEach (fun f _ s hf ↦ f.write_renders hf) s h

/-- Writing a label in the paragraph itself gives what the link reads as. -/
theorem inParagraph_writeLabel_renders {url : String} {children : List Inline} {style : RunStyle}
    (h : (inParagraph (writeLabel env true url children style) s).result = .ok ()) :
    Renders (Segment.link url children style).pieces
      ((inParagraph (writeLabel env true url children style) s).written.flatMap
        ParagraphItem.marks) := by
  have hlabel := writeLabel_renders style (s := s) (by simpa [inParagraph] using h)
  simpa [inParagraph, List.flatMap_map, ParagraphItem.marks, ParagraphItem.runs] using hlabel

/-- Writing a link gives what it reads as, whether as a hyperlink or without. -/
theorem writeLink_renders {url : String} {children : List Inline} {style : RunStyle}
    (h : (writeLink env url children style s).result = .ok ()) :
    Renders (Segment.link url children style).pieces
      ((writeLink env url children style s).written.flatMap ParagraphItem.marks) := by
  have hplain {t : RenderState} (ht : writeHyperlink env url
      (writeLabel env false url children (style.merge (.ofLink env.settings))) s =
        ⟨[], t, .ok false⟩) :
      Renders (Segment.link url children style).pieces
        ((writeLink env url children style s).written.flatMap ParagraphItem.marks) := by
    simp only [writeLink, Step.bind, ht, Bool.false_eq_true, ↓reduceIte] at h ⊢
    exact inParagraph_writeLabel_renders h
  rcases writeHyperlink_cases env url (writeLabel env false url children
    (style.merge (.ofLink env.settings))) s with
    ⟨-, log, hlink⟩ | ⟨-, e, log, -, hlink⟩ | ⟨-, hlabel, hlink⟩
  · exact hplain hlink
  · exact hplain hlink
  · have hrenders := writeLabel_renders style hlabel
    simpa [writeLink, Step.bind, hlink, ParagraphItem.marks, ParagraphItem.runs] using hrenders

/-- Writing a segment gives what its pieces read as. -/
theorem Segment.write_renders {x : Segment} (h : (x.write env s).result = .ok ()) :
    Renders x.pieces ((x.write env s).written.flatMap ParagraphItem.marks) := by
  cases x with
  | fragment f =>
    have hrenders : Renders f.pieces ((f.write env true s).written.flatMap Run.marks) :=
      f.write_renders h
    simpa [Segment.write, Segment.pieces, inParagraph, List.flatMap_map, ParagraphItem.marks,
      ParagraphItem.runs] using hrenders
  | link url children style => exact writeLink_renders h

/-! ### Passages -/

/-- The segments of a passage have its pieces. -/
theorem Passage.flatMap_segments (settings : Settings) (p : Passage) :
    (p.segments settings).flatMap Segment.pieces = p.pieces := by
  cases p with
  | codeLine first last line =>
    rw [Passage.segments, Passage.pieces]
    split
    · next hempty => simp [hempty, textPieces]
    · simp [Segment.pieces, Fragment.pieces]
  | itemStart level mark content =>
    simp [Passage.segments, Passage.pieces, Segment.pieces, Fragment.pieces, flatMap_segmentsOf]
  | _ => simp [Passage.segments, Passage.pieces, flatMap_segmentsOf]

/-- Writing a passage gives one paragraph that reads as the passage does. -/
theorem Passage.write_renders {p : Passage} (h : (p.write env s).result = .ok ()) :
    ∃ q, (p.write env s).written = [q] ∧ Renders p.pieces q.marks := by
  obtain ⟨q, hitems, hcontent, hwrite⟩ := Passage.write_of_ok h
  refine ⟨q, by rw [hwrite], ?_⟩
  rw [← p.flatMap_segments env.settings, Paragraph.marks, hitems]
  exact Renders.forEach (fun x _ t hx ↦ x.write_renders hx) s hcontent

/-- Writing passages gives one paragraph for each, which reads as the passage does. -/
theorem writePassages_renders {ps : List Passage} {s : RenderState}
    (h : (writePassages env ps s).result = .ok ()) :
    List.Forall₂ (fun p q ↦ Renders p.pieces q.marks) ps (writePassages env ps s).written :=
  forall₂_writePassages_of_forall (fun _ _ _ hp ↦ Passage.write_renders hp) h

end Write

/-! ### Documents -/

/-- A document reads as its text: it has one paragraph for each passage of the text, in the same
order, and each paragraph reads as its passage does. -/
theorem paragraphs_read {env : Surroundings} {blocks : List Block} {s : RenderState} {d : Document}
    (h : build env blocks = (s, .ok d)) :
    List.Forall₂ (fun p q ↦ Renders p.pieces q.marks) (passagesOf 1 blocks)
      (paragraphsOf d.body) := by
  obtain ⟨hok, hwritten, -, -⟩ := written_of_build h
  rw [← hwritten]
  exact writePassages_renders hok

/-- A numbered item with a link that shows nothing and an image that is missing, and a rule. -/
def numberedItem : List Block :=
  [.list true [[.paragraph [.link "u" none [], .image "i" none [.text "b"]], .rule]]]

theorem paragraphs_read_numberedItem :
    ∃ s d, build {} numberedItem = (s, .ok d) ∧
      List.Forall₂ (fun p q ↦ Renders p.pieces q.marks) (passagesOf 1 numberedItem)
        (paragraphsOf d.body) ∧
      (paragraphsOf d.body).map Paragraph.marks = ["1. u[Image: b]".toList.map .char, []] := by
  have hread : (build {} numberedItem).2.toOption.map
      (fun d ↦ (paragraphsOf d.body).map Paragraph.marks) =
        some ["1. u[Image: b]".toList.map .char, []] := by decide +kernel
  rcases hbuild : build {} numberedItem with ⟨s, e | d⟩
  · rw [hbuild] at hread
    cases hread
  · rw [hbuild] at hread
    exact ⟨s, d, rfl, paragraphs_read hbuild, Option.some.inj hread⟩

end Folio
