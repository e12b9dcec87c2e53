import Folio.Proofs.Look
import Folio.Proofs.Reading
import Folio.Proofs.References
import Folio.Proofs.Totality

/-!
# Styles and nesting

A leaf of a text is a text, a code span, a line of code, a line break or an image, and its path is
what it stands below: a heading or a header row, emphasis, links with a target (`Leaf`). The path
and the kind of a leaf alone say how it looks (`Leaf.look`). In steady surroundings the runs of a
document are its leaves, one for one, each with the look that its nesting gives it
(`runs_styled`): on the way through emphasis, links and labels, merging styles comes to the same as
collecting the path (`pathStyle_emphasis`, `pathStyle_link`).
-/

set_option autoImplicit false
set_option relaxedAutoImplicit false

namespace Folio

open Word

/-! ### Leaves and their paths -/

/-- What a leaf stands below. -/
inductive Ancestor
  | heading (level : Int)
  | headerRow
  | emphasis (delimiters : Int)
  | link

namespace Ancestor

/-- Whether what stands below is bold. -/
def isBold : Ancestor → Bool
  | heading _ => true
  | headerRow => true
  | emphasis n => 2 ≤ n
  | link => false

/-- Whether what stands below is italic. -/
def isItalic : Ancestor → Bool
  | emphasis n => n = 1 || n = 3
  | _ => false

/-- Whether what stands below is in a link. -/
def isLink : Ancestor → Bool
  | link => true
  | _ => false

/-- The size that an ancestor gives, in half points. -/
def size? : Ancestor → Option Int
  | heading level => some (RunStyle.headingSize level)
  | _ => none

end Ancestor

/-- What a leaf is. -/
inductive LeafKind
  | text (content : String)
  | codeSpan (content : String)
  | codeLine (content : String)
  | lineBreak
  | image (url alt : String)

/-- A leaf of a text, with what it stands below, the innermost in front. -/
structure Leaf where
  path : List Ancestor
  kind : LeafKind

mutual

/-- The leaves of a piece of inline content below a path. A link that shows nothing has its target
for its leaf. -/
def Inline.leaves (path : List Ancestor) : Inline → List Leaf
  | .text content => [⟨path, .text content⟩]
  | .emphasis n children => leavesOf (.emphasis n :: path) children
  | .code content => [⟨path, .codeSpan content⟩]
  | .lineBreak => [⟨path, .lineBreak⟩]
  | .image url title content => [⟨path, .image url (altText title content)⟩]
  | .link url _ children =>
    if isBlankText url then leavesOf path children
    else if anyVisible children then leavesOf (.link :: path) children
    else [⟨.link :: path, .text url⟩]
  | .unknown => []

/-- The leaves of inline content below a path. -/
def leavesOf (path : List Ancestor) : List Inline → List Leaf
  | [] => []
  | x :: xs => x.leaves path ++ leavesOf path xs

end

/-- The leaves of a passage. -/
def Passage.leaves : Passage → List Leaf
  | .heading level content => leavesOf [.heading level] content
  | .paragraph content => leavesOf [] content
  | .itemStart _ mark content => ⟨[], .text mark⟩ :: leavesOf [] content
  | .codeLine _ _ line => if line = "" then [] else [⟨[], .codeLine line⟩]
  | .quoted content => leavesOf [] content
  | .rule => []
  | .cell header content => leavesOf (if header then [.headerRow] else []) content
  | .spacer => []

/-! ### How leaves look -/

/-- How a leaf looks, and how the caption of an image does. -/
def Leaf.look (settings : Settings) (leaf : Leaf) : Look where
  font := match leaf.kind with
    | .codeSpan _ | .codeLine _ => some settings.codeFont
    | _ => none
  bold := some (leaf.path.any Ancestor.isBold)
  italic := match leaf.kind with
    | .image _ _ => some true
    | _ => some (leaf.path.any Ancestor.isItalic)
  color := match leaf.kind with
    | .codeSpan _ => some settings.codeColor.toUpper
    | .image _ _ => some settings.captionColor.toUpper
    | _ => if leaf.path.any Ancestor.isLink then some settings.linkColor.toUpper else none
  size := leaf.path.findSome? Ancestor.size?
  underline := leaf.path.any Ancestor.isLink
  shades := match leaf.kind with
    | .codeSpan _ => [settings.codeShade]
    | _ => []

/-- A text as it is read. -/
def readMarks (text : String) : List Mark := text.toList.map fun c ↦ .char (readChar c)

/-- A run that shows a leaf: a text or code reads as it is and has the look of the leaf. An image is
drawn, if it has a source, or its caption has the look of the leaf. -/
def Leaf.IsShownBy (settings : Settings) (leaf : Leaf) (r : Run) : Prop :=
  match leaf.kind with
  | .text content | .codeSpan content | .codeLine content =>
    r.propertyList = (leaf.look settings).properties ∧ r.marks = readMarks content
  | .lineBreak => r = Run.empty.append .lineBreak
  | .image url alt =>
    (isBlankText url = false ∧ ∃ d, r = Run.empty.append (.drawing d)) ∨
      (r.propertyList = (leaf.look settings).properties ∧ r.marks = readMarks (caption alt))

/-- The runs of a paragraph, those in labels included. -/
def Word.Paragraph.runs (p : Paragraph) : List Run := p.items.flatMap ParagraphItem.runs

/-! ### Styles of paths -/

/-- The style that a path gives. -/
def pathStyle (settings : Settings) (path : List Ancestor) : RunStyle where
  bold := path.any Ancestor.isBold
  italic := path.any Ancestor.isItalic
  underline := path.any Ancestor.isLink
  color := if path.any Ancestor.isLink then some settings.linkColor else none
  size := path.findSome? Ancestor.size?

section Paths

variable {settings : Settings}

/-- Emphasis on a path is emphasis merged into its style. -/
theorem pathStyle_emphasis (path : List Ancestor) (n : Int) :
    (pathStyle settings path).merge (.ofEmphasis n) = pathStyle settings (.emphasis n :: path) := by
  simp [pathStyle, RunStyle.merge, RunStyle.ofEmphasis, Ancestor.isBold, Ancestor.isItalic,
    Ancestor.isLink, Ancestor.size?, List.findSome?_cons, Bool.or_comm]

theorem pathStyle_header (header : Bool) :
    pathStyle settings (if header then [.headerRow] else []) =
      if header then .ofHeader else .plain := by
  cases header <;> rfl

/-- Further links on a path make no difference. -/
theorem pathStyle_link_of_isLink {path : List Ancestor} (h : path.any Ancestor.isLink = true) :
    pathStyle settings (.link :: path) = pathStyle settings path := by
  simp [pathStyle, h, Ancestor.isBold, Ancestor.isItalic, Ancestor.isLink, Ancestor.size?,
    List.findSome?_cons]

variable (haccepted : settings.Accepted)

include haccepted

/-- An accepted colour wins over any other. -/
theorem innerText_color (outer : Option String) (f : ColorField) :
    RunStyle.innerText outer (some (f.get settings)) = some (f.get settings) := by
  simp [RunStyle.innerText, isEmpty_of_isHexColor (haccepted.isHexColor f)]

/-- A link on a path is the style of links merged into its style. -/
theorem pathStyle_link (path : List Ancestor) :
    (pathStyle settings path).merge (.ofLink settings) = pathStyle settings (.link :: path) := by
  have hcolor := innerText_color haccepted (pathStyle settings path).color .link
  simp only [ColorField.get] at hcolor
  simp only [RunStyle.merge, RunStyle.ofLink, hcolor]
  simp [pathStyle, Ancestor.isBold, Ancestor.isItalic, Ancestor.isLink, Ancestor.size?,
    List.findSome?_cons]

theorem sound_pathStyle (path : List Ancestor) : (pathStyle settings path).Sound where
  color c hc := by
    have hlink : settings.linkColor = c := by
      simp only [pathStyle, Option.ite_none_right_eq_some, Option.some.injEq] at hc
      exact hc.2
    rw [← hlink]
    exact haccepted.isHexColor .link
  shade c hc := by simp [pathStyle] at hc
  size n hn := by
    obtain ⟨ancestor, -, hsize⟩ := List.exists_of_findSome?_eq_some hn
    cases ancestor with
    | heading level => exact ⟨level, (Option.some.inj hsize).symm⟩
    | _ => cases hsize

end Paths

/-! ### Leaves as fragments -/

/-- The style of a leaf, and that around the caption of an image. -/
def Leaf.style (settings : Settings) (leaf : Leaf) : RunStyle :=
  match leaf.kind with
  | .codeSpan _ => (pathStyle settings leaf.path).merge (.ofCode settings)
  | .codeLine _ => (pathStyle settings leaf.path).merge .ofCodeLine
  | _ => pathStyle settings leaf.path

/-- The fragment that a leaf is. -/
def Leaf.fragment (settings : Settings) (leaf : Leaf) : Fragment :=
  match leaf.kind with
  | .text content | .codeSpan content | .codeLine content => .text content (leaf.style settings)
  | .lineBreak => .lineBreak
  | .image url alt => .image url alt (leaf.style settings)

/-- The fragments of a segment: its own, or those of the label of a hyperlink. -/
def Segment.fragments (settings : Settings) : Segment → List Fragment
  | .fragment f => [f]
  | .link url children style =>
    labelFragments settings url children (style.merge (.ofLink settings))

section Leaves

variable {settings : Settings}

mutual

/-- In the label of a link, content has its leaves for its fragments. -/
theorem Inline.fragments_eq_leaves : ∀ (x : Inline) {path : List Ancestor},
    path.any Ancestor.isLink = true →
      x.fragments settings (pathStyle settings path) =
        (x.leaves path).map (Leaf.fragment settings)
  | .text content, path, _ => rfl
  | .emphasis n children, path, h => by
    rw [Inline.fragments, Inline.leaves, pathStyle_emphasis]
    exact fragmentsOf_eq_leaves children (by simp [h])
  | .code content, path, _ => rfl
  | .lineBreak, path, _ => rfl
  | .image url title content, path, _ => rfl
  | .link url title children, path, h => by
    rw [Inline.fragments, Inline.leaves]
    rcases hurl : isBlankText url
    · rcases hvisible : anyVisible children
      · simp [Leaf.fragment, Leaf.style, pathStyle_link_of_isLink h]
      · have hchildren : fragmentsOf settings children (pathStyle settings (.link :: path)) =
            (leavesOf (.link :: path) children).map (Leaf.fragment settings) :=
          fragmentsOf_eq_leaves children rfl
        rw [pathStyle_link_of_isLink h] at hchildren
        simpa using hchildren
    · simpa using fragmentsOf_eq_leaves children h
  | .unknown, path, _ => rfl

theorem fragmentsOf_eq_leaves : ∀ (xs : List Inline) {path : List Ancestor},
    path.any Ancestor.isLink = true →
      fragmentsOf settings xs (pathStyle settings path) =
        (leavesOf path xs).map (Leaf.fragment settings)
  | [], path, _ => rfl
  | x :: xs, path, h => by
    rw [fragmentsOf, leavesOf, List.map_append, Inline.fragments_eq_leaves x h,
      fragmentsOf_eq_leaves xs h]

end

mutual

/-- In a paragraph, content has its leaves for the fragments of its segments. -/
theorem Inline.segments_eq_leaves (haccepted : settings.Accepted) :
    ∀ (x : Inline) (path : List Ancestor),
    (x.segments settings (pathStyle settings path)).flatMap (Segment.fragments settings) =
      (x.leaves path).map (Leaf.fragment settings)
  | .emphasis n children, path => by
    rw [Inline.segments, Inline.leaves, pathStyle_emphasis]
    exact segmentsOf_eq_leaves haccepted children _
  | .link url title children, path => by
    rw [Inline.segments, Inline.leaves]
    rcases hurl : isBlankText url
    · have hlabel : fragmentsOf settings children (pathStyle settings (.link :: path)) =
          (leavesOf (.link :: path) children).map (Leaf.fragment settings) :=
        fragmentsOf_eq_leaves children rfl
      rcases hvisible : anyVisible children
      · simp [Segment.fragments, labelFragments, hvisible, pathStyle_link haccepted,
          Leaf.fragment, Leaf.style]
      · simp [Segment.fragments, labelFragments, hvisible, pathStyle_link haccepted, hlabel]
    · simpa using segmentsOf_eq_leaves haccepted children path
  | .text content, path => rfl
  | .code content, path => rfl
  | .lineBreak, path => rfl
  | .image url title content, path => rfl
  | .unknown, path => rfl

theorem segmentsOf_eq_leaves (haccepted : settings.Accepted) :
    ∀ (xs : List Inline) (path : List Ancestor),
    (segmentsOf settings xs (pathStyle settings path)).flatMap (Segment.fragments settings) =
      (leavesOf path xs).map (Leaf.fragment settings)
  | [], path => rfl
  | x :: xs, path => by
    rw [segmentsOf, leavesOf, List.flatMap_append, List.map_append,
      Inline.segments_eq_leaves haccepted x path, segmentsOf_eq_leaves haccepted xs path]

end

/-- A passage has its leaves for the fragments of its segments. -/
theorem Passage.segments_eq_leaves (haccepted : settings.Accepted) (p : Passage) :
    (p.segments settings).flatMap (Segment.fragments settings) =
      p.leaves.map (Leaf.fragment settings) := by
  cases p with
  | heading level content => exact segmentsOf_eq_leaves haccepted content [.heading level]
  | paragraph content => exact segmentsOf_eq_leaves haccepted content []
  | itemStart level mark content =>
    have hcontent := segmentsOf_eq_leaves haccepted content []
    exact congrArg (Fragment.text mark .plain :: ·) hcontent
  | codeLine first last line =>
    rw [Passage.segments, Passage.leaves]
    split <;> rfl
  | quoted content => exact segmentsOf_eq_leaves haccepted content []
  | cell header content =>
    have hcontent := segmentsOf_eq_leaves haccepted content (if header then [.headerRow] else [])
    rwa [pathStyle_header] at hcontent
  | rule => rfl
  | spacer => rfl

end Leaves

/-! ### What leaves are written as -/

section Write

variable {env : Surroundings} {s : RenderState}

/-- A label is written as its fragments. -/
theorem written_writeLabel {attached : Bool} {url : String} {children : List Inline}
    {style : RunStyle} (h : (writeLabel env attached url children style s).result = .ok ()) :
    List.Forall₂ (Fragment.IsWrittenAs env.settings)
      (labelFragments env.settings url children style)
      (writeLabel env attached url children style s).written := by
  rw [writeLabel_eq] at h ⊢
  have hone : ∀ f ∈ labelFragments env.settings url children style, ∀ t, True →
      (f.write env attached t).result = .ok () →
        List.Forall₂ (Fragment.IsWrittenAs env.settings) [f]
          ((f.write env attached t).written.flatMap ([·])) := by
    intro f _ t _ hf
    obtain ⟨r, hr, hwritten⟩ := f.written_of_ok hf
    rw [hwritten]
    exact .cons hr .nil
  have hall := Step.forall₂_forEach (fun _ _ _ _ ↦ trivial) hone trivial h
  simpa using hall

/-- A segment in a sound style is written as its fragments. -/
theorem Segment.written_of_ok (henv : env.Steady) {x : Segment} (hx : x.Sound)
    (hs : s.Loadable env) (h : (x.write env s).result = .ok ()) :
    List.Forall₂ (Fragment.IsWrittenAs env.settings) (x.fragments env.settings)
      ((x.write env s).written.flatMap ParagraphItem.runs) := by
  cases x with
  | fragment f =>
    have hfragment : (f.write env true s).result = .ok () := h
    obtain ⟨r, hr, hwritten⟩ := f.written_of_ok hfragment
    simpa [Segment.write, Segment.fragments, inParagraph, hwritten, ParagraphItem.runs] using hr
  | link url children style =>
    have hlabel := label_of_writeLink henv hx hs h
    have hwritten := written_writeLabel hlabel
    simpa [Segment.write, Segment.fragments, writeLink, Step.bind,
      writeHyperlink_of_built (henv.registers _) hlabel, ParagraphItem.runs] using hwritten

/-- A passage is written as the fragments of its segments. -/
theorem Passage.written_of_ok (henv : env.Steady) {p : Passage} (hs : s.Loadable env)
    (h : (p.write env s).result = .ok ()) :
    ∃ q, (p.write env s).written = [q] ∧ List.Forall₂ (Fragment.IsWrittenAs env.settings)
      ((p.segments env.settings).flatMap (Segment.fragments env.settings)) q.runs := by
  obtain ⟨q, hitems, hcontent, hwrite⟩ := Passage.write_of_ok h
  have hkeep : ∀ x ∈ p.segments env.settings, (x.write env).Obeys
      fun s _ t ↦ s.Loadable env → t.Loadable env :=
    fun x _ s ↦ (x.write_learns henv.answers s).loadable
  refine ⟨q, hwrite ▸ rfl, ?_⟩
  rw [Paragraph.runs, hitems]
  exact Step.forall₂_forEach hkeep
    (fun x hx _ ht ↦ Segment.written_of_ok henv (p.segments_sound henv.accepted x hx) ht) hs
    hcontent

end Write

/-! ### What leaves are shown as -/

section Shown

variable {settings : Settings} (haccepted : settings.Accepted)

include haccepted

theorem Leaf.sound_style (leaf : Leaf) : (leaf.style settings).Sound := by
  have hpath := sound_pathStyle haccepted leaf.path
  unfold Leaf.style
  split
  · exact hpath.merge (RunStyle.sound_ofCode haccepted)
  · exact hpath.merge RunStyle.sound_ofCodeLine
  · exact hpath

/-- A leaf that is no image looks as its style describes. -/
theorem Leaf.look_style {leaf : Leaf} (h : ∀ url alt, leaf.kind ≠ .image url alt) :
    (leaf.style settings).look settings.codeFont = leaf.look settings := by
  obtain ⟨path, kind⟩ := leaf
  have hcode (outer : Option String) := innerText_color haccepted outer .code
  have hshade := innerText_color haccepted none .codeShade
  simp only [ColorField.get] at hcode hshade
  cases kind with
  | image url alt => exact absurd rfl (h url alt)
  | codeSpan content =>
    simp [Leaf.style, Leaf.look, RunStyle.look, RunStyle.merge, RunStyle.ofCode, pathStyle, hcode,
      hshade]
  | codeLine content =>
    simp [Leaf.style, Leaf.look, RunStyle.look, RunStyle.merge, RunStyle.ofCodeLine, pathStyle,
      apply_ite]
  | text content => simp [Leaf.style, Leaf.look, RunStyle.look, pathStyle, apply_ite]
  | lineBreak => simp [Leaf.style, Leaf.look, RunStyle.look, pathStyle, apply_ite]

/-- The caption of an image looks as the style of captions within that of its path. -/
theorem Leaf.look_caption (path : List Ancestor) (url alt : String) :
    ((pathStyle settings path).merge (.ofCaption settings)).look settings.codeFont =
      Leaf.look settings ⟨path, .image url alt⟩ := by
  have hcaption (outer : Option String) := innerText_color haccepted outer .caption
  simp only [ColorField.get] at hcaption
  simp [Leaf.look, RunStyle.look, RunStyle.merge, RunStyle.ofCaption, pathStyle, hcaption]

/-- A run that the fragment of a leaf is written as shows the leaf. -/
theorem Leaf.isShownBy_of_isWrittenAs {leaf : Leaf} {r : Run}
    (h : (leaf.fragment settings).IsWrittenAs settings r) : leaf.IsShownBy settings r := by
  have htext {content : String}
      (hlook : (leaf.style settings).look settings.codeFont = leaf.look settings)
      (hrun : textRun settings content (leaf.style settings) Run.empty = (r, none)) :
      r.propertyList = (leaf.look settings).properties ∧ r.marks = readMarks content := by
    have hok : (textRun settings content (leaf.style settings) Run.empty).2 = none := by rw [hrun]
    have hproperties := textRun_look (leaf.sound_style haccepted) hok
    have hmarks := textRun_marks hok
    rw [hrun] at hproperties hmarks
    rw [hlook] at hproperties
    exact ⟨hproperties, hmarks⟩
  obtain ⟨path, kind⟩ := leaf
  cases kind with
  | text content => exact htext (Leaf.look_style haccepted nofun) h
  | codeSpan content => exact htext (Leaf.look_style haccepted nofun) h
  | codeLine content => exact htext (Leaf.look_style haccepted nofun) h
  | lineBreak => exact h
  | image url alt =>
    refine h.imp id fun hrun ↦ ?_
    have hok : (captionRun settings alt (pathStyle settings path) Run.empty).2 = none :=
      congrArg Prod.snd hrun
    have hproperties := captionRun_look haccepted (sound_pathStyle haccepted path) hok
    have hmarks := captionRun_marks hok
    have hfirst : (captionRun settings alt (pathStyle settings path) Run.empty).1 = r :=
      congrArg Prod.fst hrun
    rw [hfirst] at hproperties hmarks
    rw [Leaf.look_caption haccepted path url alt] at hproperties
    exact ⟨hproperties, hmarks⟩

end Shown

/-! ### Documents -/

/-- The runs of a document that is built in steady surroundings are the leaves of its text, passage
by passage and one for one, and each run has the look that the nesting of its leaf gives it. -/
theorem runs_styled {env : Surroundings} (henv : env.Steady) {blocks : List Block}
    {s : RenderState} {d : Document} (h : build env blocks = (s, .ok d)) :
    List.Forall₂ (fun p q ↦ List.Forall₂ (Leaf.IsShownBy env.settings) p.leaves q.runs)
      (passagesOf 1 blocks) (paragraphsOf d.body) := by
  obtain ⟨hok, hwritten, -, -⟩ := written_of_build h
  rw [← hwritten]
  have hloadable : ({} : RenderState).Loadable env := List.forall_mem_nil _
  refine forall₂_writePassages (fun p _ s ↦ (p.write_learns henv.answers s).loadable)
    (fun p _ s hs hp ↦ ?_) hloadable hok
  obtain ⟨q, hpassage, hfragments⟩ := Passage.written_of_ok henv hs hp
  rw [p.segments_eq_leaves henv.accepted, List.forall₂_map_left_iff] at hfragments
  exact ⟨q, hpassage, hfragments.imp fun _ _ ↦ Leaf.isShownBy_of_isWrittenAs henv.accepted⟩

/-- A heading with emphasis around a link that shows a code span and an image that is missing, and
a table with a header row and a link that shows nothing. -/
def styledText : List Block :=
  [.heading 1 [.emphasis 1 [.link "http://a/" none [.code "x", .image "i" none [.text "y"]]]],
    .table [⟨true, [[.text "h"]]⟩, ⟨false, [[.link "u" none []]]⟩]]

theorem runs_styled_styledText :
    sameImage.Steady ∧ ∃ s d, build sameImage styledText = (s, .ok d) ∧
      List.Forall₂ (fun p q ↦ List.Forall₂ (Leaf.IsShownBy sameImage.settings) p.leaves q.runs)
        (passagesOf 1 styledText) (paragraphsOf d.body) ∧
      (paragraphsOf d.body).map (fun q ↦ q.runs.map Run.propertyList) =
        [[[.fonts "Consolas", .bold true, .italic true, .color "C7254E", .size (some 32),
            .underline, .shade "F2F2F2"],
          [.bold true, .italic true, .color "808080", .size (some 32), .underline]],
        [[.bold true, .italic false]],
        [[.bold false, .italic false, .color "0563C1", .underline]],
        []] := by
  have hbuilt : (build sameImage styledText).2.toOption.map
      (fun d ↦ (paragraphsOf d.body).map fun q ↦ q.runs.map Run.propertyList) =
        some [[[.fonts "Consolas", .bold true, .italic true, .color "C7254E", .size (some 32),
            .underline, .shade "F2F2F2"],
          [.bold true, .italic true, .color "808080", .size (some 32), .underline]],
        [[.bold true, .italic false]],
        [[.bold false, .italic false, .color "0563C1", .underline]],
        []] := by decide +kernel
  obtain ⟨s, d, hbuild, hproperties⟩ := exists_build_of_map hbuilt
  exact ⟨sameImage_steady, s, d, hbuild, runs_styled sameImage_steady hbuild, hproperties⟩

end Folio
