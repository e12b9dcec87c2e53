import Folio.Proofs.Markup
import Folio.Proofs.Reading
import Folio.Proofs.References

/-!
# Where hyperlinks stand

In the XML of a document a hyperlink is an element of a paragraph, its children are runs, it holds
no other hyperlink, and it shows a drawing or a character that is not blank (`hyperlinks_placed`).
It shows something because its label reads as its link (`writeLabel_renders`): what can be seen in
the content of a link can be seen in what it reads as (`piecesOf_isVisible`), and a link that has
nothing to show reads as its target, which is not blank (`isBlankText_of_mem_linksIn`).
-/

set_option autoImplicit false
set_option relaxedAutoImplicit false

namespace Folio

open Word

/-! ### What can be seen -/

/-- Whether something met in reading can be seen: a drawing, or a character that is not blank. -/
def Mark.isVisible : Mark → Bool
  | char c => !isBlank c
  | drawing _ => true

/-- Whether a piece of a text can be seen: an image, or a character that is not blank. -/
def Piece.isVisible : Piece → Bool
  | char c => !isBlank c
  | image _ => true

theorem isBlank_readChar (c : Char) : isBlank (readChar c) = isBlank c := by
  unfold readChar
  split
  · next hc => rw [hc]; decide
  · rfl

/-- The text of a string can be seen unless the string is blank. -/
theorem textPieces_isVisible (s : String) :
    (textPieces s).any Piece.isVisible = !isBlankText s := by
  simp [textPieces, isBlankText, Piece.isVisible, isBlank_readChar, List.any_map,
    Function.comp_def, List.not_all_eq_any_not]

/-- What a string reads as can be seen unless the string is blank. -/
theorem textMarks_isVisible (s : String) :
    (s.toList.map fun c ↦ Mark.char (readChar c)).any Mark.isVisible = !isBlankText s := by
  simp [isBlankText, Mark.isVisible, isBlank_readChar, List.any_map, Function.comp_def,
    List.not_all_eq_any_not]

/-- A caption can be seen. -/
theorem isBlankText_caption (alt : String) : isBlankText (caption alt) = false := by
  have hbracket : isBlank '[' = false := by decide
  simp [isBlankText, caption, hbracket]

/-- What can be seen in a text can be seen in what it reads as. -/
theorem Renders.isVisible {ps : List Piece} {ms : List Mark} (h : Renders ps ms)
    (hps : ps.any Piece.isVisible = true) : ms.any Mark.isVisible = true := by
  induction h with
  | nil => cases hps
  | char c _ ih =>
    rw [List.any_cons, Bool.or_eq_true] at hps ⊢
    exact hps.imp id ih
  | drawn alt picture _ _ => rfl
  | captioned alt _ _ =>
    rw [List.any_append, textMarks_isVisible, isBlankText_caption]
    rfl

mutual

theorem Inline.pieces_isVisible : ∀ {x : Inline}, x.isVisible = true →
    x.pieces.any Piece.isVisible = true
  | .text content, h => by rwa [Inline.pieces, textPieces_isVisible]
  | .emphasis n children, h => piecesOf_isVisible h
  | .code content, h => by rwa [Inline.pieces, textPieces_isVisible]
  | .lineBreak, h => by cases h
  | .image url title content, h => by
    rw [Inline.pieces]
    split
    · rw [textPieces_isVisible, isBlankText_caption]
      rfl
    · rfl
  | .link url title children, h => by
    have hchildren : anyVisible children = true := h
    rw [Inline.pieces, if_pos (by simp [hchildren])]
    exact piecesOf_isVisible hchildren
  | .unknown, h => by cases h

/-- Content that shows something has pieces that can be seen. -/
theorem piecesOf_isVisible : ∀ {xs : List Inline}, anyVisible xs = true →
    (piecesOf xs).any Piece.isVisible = true
  | [], h => by cases h
  | x :: xs, h => by
    rw [anyVisible_cons, Bool.or_eq_true] at h
    rw [piecesOf, List.any_append, Bool.or_eq_true]
    exact h.imp Inline.pieces_isVisible piecesOf_isVisible

end

/-- A link to a target that is not blank has pieces that can be seen. -/
theorem Segment.pieces_isVisible {url : String} (hurl : isBlankText url = false)
    (children : List Inline) (style : RunStyle) :
    (Segment.link url children style).pieces.any Piece.isVisible = true := by
  rw [Segment.pieces]
  split
  · next hvisible => exact piecesOf_isVisible hvisible
  · rw [textPieces_isVisible, hurl]
    rfl

mutual

theorem Inline.isBlankText_of_mem_links : ∀ {x : Inline} {url : String}, url ∈ x.links →
    isBlankText url = false
  | .emphasis n children, url, h => isBlankText_of_mem_linksIn h
  | .link target title children, url, h => by
    rw [Inline.links] at h
    split at h
    · exact isBlankText_of_mem_linksIn h
    · next htarget =>
      rw [List.mem_singleton.mp h]
      simpa using htarget
  | .text content, url, h => by cases h
  | .code content, url, h => by cases h
  | .lineBreak, url, h => by cases h
  | .image target title content, url, h => by cases h
  | .unknown, url, h => by cases h

/-- The links that become hyperlinks have targets that are not blank. -/
theorem isBlankText_of_mem_linksIn : ∀ {xs : List Inline} {url : String}, url ∈ linksIn xs →
    isBlankText url = false
  | [], url, h => by cases h
  | x :: xs, url, h =>
    (List.mem_append.mp h).elim Inline.isBlankText_of_mem_links isBlankText_of_mem_linksIn

end

/-! ### Labels -/

/-- Whether a piece of a paragraph is no hyperlink, or one whose label shows something. -/
def Word.ParagraphItem.isClickable : ParagraphItem → Bool
  | .run _ => true
  | .hyperlink _ label => (label.flatMap Run.marks).any Mark.isVisible

/-- A hyperlink to a target that is not blank shows something. -/
theorem writeLink_isClickable (env : Surroundings) {url : String} (hurl : isBlankText url = false)
    (children : List Inline) (style : RunStyle) :
    (writeLink env url children style).WritesOnly (·.isClickable = true) := by
  have hruns : (inParagraph (writeLabel env true url children style)).WritesOnly
      (·.isClickable = true) := by
    intro s
    simp [inParagraph, ParagraphItem.isClickable]
  refine Step.WritesOnly.bind (fun s ↦ ?_) fun built ↦ ?_
  · rcases writeHyperlink_cases env url (writeLabel env false url children
      (style.merge (.ofLink env.settings))) s with
      ⟨-, log, hlink⟩ | ⟨-, e, log, -, hlink⟩ | ⟨-, hlabel, hlink⟩
    all_goals rw [hlink]
    · exact List.forall_mem_nil _
    · exact List.forall_mem_nil _
    · refine List.forall_mem_singleton.mpr ?_
      exact (writeLabel_renders style hlabel).isVisible
        (Segment.pieces_isVisible hurl children style)
  · cases built
    · exact hruns
    · exact Step.writesOnly_done ()

/-- The hyperlinks of a passage show something. -/
theorem Passage.write_isClickable (env : Surroundings) (p : Passage) :
    ∀ x ∈ p.segments env.settings, (x.write env).WritesOnly (·.isClickable = true) := by
  intro x hx
  cases x with
  | fragment f => exact fun s ↦ by simp [Segment.write, inParagraph, ParagraphItem.isClickable]
  | link url children style =>
    have hlinks := (p.segments_references env.settings).1
    have hurl : url ∈ linksIn p.content := by
      rw [← hlinks]
      exact List.mem_flatMap.mpr ⟨_, hx, List.mem_singleton_self url⟩
    exact writeLink_isClickable env (isBlankText_of_mem_linksIn hurl) children style

/-! ### Hyperlinks as elements -/

open Xml

/-- A hyperlink in its place: it stands in a paragraph, its children are runs, it holds no
hyperlink, and it shows a drawing or a character that is not blank. -/
structure Word.Xml.IsPlacedLink (parent : String) (x : Xml) : Prop where
  inParagraph : parent = "w:p"
  runs : ∀ child ∈ x.children, child.name? = some "w:r"
  flat : namedIn "w:hyperlink" "w:hyperlink" x.children = []
  shows : namedIn "w:drawing" "w:hyperlink" x.children ≠ [] ∨
    ∃ e ∈ namedIn "w:t" "w:hyperlink" x.children, ∃ c ∈ e.2.characters, isBlank c = false

/-- What can be seen of runs is a drawing or a character among their elements. -/
theorem shows_of_isVisible {runs : List Run}
    (h : (runs.flatMap Run.marks).any Mark.isVisible = true) (parent : String) :
    namedIn "w:drawing" parent (runs.map Run.xml) ≠ [] ∨
      ∃ e ∈ namedIn "w:t" parent (runs.map Run.xml), ∃ c ∈ e.2.characters, isBlank c = false := by
  obtain ⟨mark, hmark, hvisible⟩ := List.any_eq_true.mp h
  obtain ⟨r, hr, hmark⟩ := List.mem_flatMap.mp hmark
  obtain ⟨item, hitem, hmark⟩ := List.mem_flatMap.mp hmark
  have hin {name : String} (hname : item.xml.name? = some name) (hother : name ≠ "w:r") :
      ("w:r", item.xml) ∈ namedIn name parent (runs.map Run.xml) := by
    refine namedIn_of_mem (List.mem_map_of_mem hr) ?_
    rw [Run.xml, node, named, if_neg hother.symm, List.nil_append]
    exact mem_namedIn (List.mem_append_right _ (List.mem_map_of_mem hitem)) hname
  cases item with
  | text value keepSpace =>
    obtain ⟨c, hc, rfl⟩ := List.mem_map.mp hmark
    refine .inr ⟨_, hin rfl (by decide), c, ?_, by simpa [Mark.isVisible] using hvisible⟩
    simpa [RunItem.xml, characters, children] using hc
  | tab =>
    rw [List.mem_singleton.mp hmark] at hvisible
    exact absurd hvisible (by decide)
  | lineBreak =>
    rw [List.mem_singleton.mp hmark] at hvisible
    exact absurd hvisible (by decide)
  | drawing picture => exact .inl (List.ne_nil_of_mem (hin rfl (by decide)))

/-- A hyperlink whose label shows something is in its place in a paragraph. -/
theorem isPlacedLink_of_isClickable {id : Nat} {label : List Run}
    (h : (ParagraphItem.hyperlink id label).isClickable = true) :
    (ParagraphItem.hyperlink id label).xml.IsPlacedLink "w:p" where
  inParagraph := rfl
  runs := by
    intro child hchild
    obtain ⟨r, -, rfl⟩ := List.mem_map.mp hchild
    rfl
  flat := namedIn_hyperlink_runs _ label
  shows := shows_of_isVisible h _

/-- Every hyperlink of a document stands in a paragraph, has runs for children, holds no hyperlink
and shows a drawing or a character that is not blank. -/
theorem hyperlinks_placed {env : Surroundings} {blocks : List Block} {s : RenderState}
    {d : Document} (h : build env blocks = (s, .ok d)) :
    ∀ e ∈ namedIn "w:hyperlink" "w:body" (d.body.map Element.xml), e.2.IsPlacedLink e.1 := by
  obtain ⟨helements, hparagraphs⟩ := isSided_of_build h
  have hclickable := keeps_of_build (Step.sequential_forall (·.isClickable = true))
    (fun p _ x hx ↦ (p.write_isClickable env x hx).yields) h
  rw [named_hyperlink_body helements hparagraphs]
  intro e he
  obtain ⟨p, hp, hlink⟩ := List.mem_flatMap.mp he
  obtain ⟨x, hx, hlink⟩ := List.mem_flatMap.mp hlink
  cases x with
  | run content => cases hlink
  | hyperlink id label =>
    rw [List.mem_singleton.mp hlink]
    exact isPlacedLink_of_isClickable (hclickable _ (List.mem_flatMap.mpr ⟨p, hp, hx⟩))

/-- A link in a link in emphasis, a link that shows nothing, and a link with an image. -/
def nestedLinks : List Block :=
  [.quote [.paragraph
    [.emphasis 2 [.link "http://a/" none [.link "http://b/" none [.text "x"], .lineBreak]],
      .link "http://c/" none [.text " ", .unknown],
      .link "http://d/" none [.image "http://e/f.png" none []]]]]

theorem hyperlinks_placed_nestedLinks :
    ∃ s d, build sameImage nestedLinks = (s, .ok d) ∧
      (namedIn "w:hyperlink" "w:body" (d.body.map Element.xml)).length = 3 ∧
      ∀ e ∈ namedIn "w:hyperlink" "w:body" (d.body.map Element.xml), e.2.IsPlacedLink e.1 := by
  have hcount : (build sameImage nestedLinks).2.toOption.map
      (fun d ↦ (namedIn "w:hyperlink" "w:body" (d.body.map Element.xml)).length) = some 3 := by
    decide +kernel
  obtain ⟨s, d, hbuild, hlinks⟩ := exists_build_of_map hcount
  exact ⟨s, d, hbuild, hlinks, hyperlinks_placed hbuild⟩

end Folio
