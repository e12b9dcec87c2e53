import Folio.Proofs.Step
import Folio.Render.Inline

/-!
# Inline content as a sequence of fragments

However deep inline content is nested, writing it is writing one run after the other: each run is a
text in a style, a line break or an image (`Fragment`), and the nesting only decides the styles
(`fragmentsOf`). In a paragraph the runs are interrupted by hyperlinks (`Segment`, `segmentsOf`).
`writeRuns_eq` and `writeItems_eq` say that the two ways of writing agree, step by step, so that a
property of written content is one of a flat sequence.
-/

set_option autoImplicit false
set_option relaxedAutoImplicit false

namespace Folio

open Word

/-! ### Runs -/

/-- What becomes a run. -/
inductive Fragment
  | text (content : String) (style : RunStyle)
  | lineBreak
  | image (url alt : String) (style : RunStyle)

/-- Writes a fragment as a run. -/
def Fragment.write (env : Surroundings) (attached : Bool) : Fragment → Step Run Unit
  | .text content style => writeText env content style
  | .lineBreak => writeBreak
  | .image url alt style =>
    if isBlankText url then Step.make Run.empty (captionRun env.settings alt style)
    else (embedImage env attached url alt style).bind fun _ ↦ Step.done ()

mutual

/-- The fragments of a piece of inline content in a style. -/
def Inline.fragments (settings : Settings) : Inline → RunStyle → List Fragment
  | .text content, style => [.text content style]
  | .emphasis n children, style => fragmentsOf settings children (style.merge (.ofEmphasis n))
  | .code content, style => [.text content (style.merge (.ofCode settings))]
  | .lineBreak, _ => [.lineBreak]
  | .image url title content, style => [.image url (altText title content) style]
  | .link url _ children, style =>
    if isBlankText url || anyVisible children then fragmentsOf settings children style
    else [.text url style]
  | .unknown, _ => []

/-- The fragments of inline content in a style. -/
def fragmentsOf (settings : Settings) : List Inline → RunStyle → List Fragment
  | [], _ => []
  | x :: xs, style => x.fragments settings style ++ fragmentsOf settings xs style

end

/-- The fragments of the label of a link: its content, or its target if that shows nothing. -/
def labelFragments (settings : Settings) (url : String) (children : List Inline)
    (style : RunStyle) : List Fragment :=
  if anyVisible children then fragmentsOf settings children style else [.text url style]

mutual

/-- Writing a piece of inline content as runs is writing its fragments. -/
theorem writeRun_eq (env : Surroundings) (attached : Bool) : ∀ (x : Inline) (style : RunStyle),
    writeRun env attached x style =
      Step.forEach (Fragment.write env attached) (x.fragments env.settings style)
  | .text content, style => by
    rw [writeRun, Inline.fragments, Step.forEach_singleton, Fragment.write]
  | .emphasis n children, style => by
    rw [writeRun, Inline.fragments, writeRuns_eq env attached children]
  | .code content, style => by
    rw [writeRun, Inline.fragments, Step.forEach_singleton, Fragment.write]
  | .lineBreak, style => by
    rw [writeRun, Inline.fragments, Step.forEach_singleton, Fragment.write]
  | .image url title content, style => by
    rw [writeRun, Inline.fragments, Step.forEach_singleton, Fragment.write]
    rfl
  | .link url title children, style => by
    rw [writeRun, Inline.fragments]
    split
    · exact writeRuns_eq env attached children style
    · rw [Step.forEach_singleton, Fragment.write]
  | .unknown, style => by
    rw [writeRun, Inline.fragments, Step.forEach_nil]

/-- Writing inline content as runs is writing its fragments one after the other. -/
theorem writeRuns_eq (env : Surroundings) (attached : Bool) :
    ∀ (xs : List Inline) (style : RunStyle), writeRuns env attached xs style =
      Step.forEach (Fragment.write env attached) (fragmentsOf env.settings xs style)
  | [], style => rfl
  | x :: xs, style => by
    rw [writeRuns, fragmentsOf, Step.forEach_append, writeRun_eq env attached x,
      writeRuns_eq env attached xs]

end

/-- Writing the label of a link is writing its fragments. -/
theorem writeLabel_eq (env : Surroundings) (attached : Bool) (url : String)
    (children : List Inline) (style : RunStyle) :
    writeLabel env attached url children style =
      Step.forEach (Fragment.write env attached)
        (labelFragments env.settings url children style) := by
  rw [writeLabel, labelFragments]
  split
  · exact writeRuns_eq env attached children style
  · rw [Step.forEach_singleton, Fragment.write]

/-! ### Paragraphs -/

/-- What becomes a piece of a paragraph: a run, or a hyperlink with its label. -/
inductive Segment
  | fragment (content : Fragment)
  | link (url : String) (children : List Inline) (style : RunStyle)

/-- Writes a segment into a paragraph. -/
def Segment.write (env : Surroundings) : Segment → Step ParagraphItem Unit
  | .fragment f => inParagraph (f.write env true)
  | .link url children style => writeLink env url children style

mutual

/-- The segments of a piece of inline content in a style. -/
def Inline.segments (settings : Settings) : Inline → RunStyle → List Segment
  | .emphasis n children, style => segmentsOf settings children (style.merge (.ofEmphasis n))
  | .link url _ children, style =>
    if isBlankText url then segmentsOf settings children style else [.link url children style]
  | leaf, style => (leaf.fragments settings style).map .fragment

/-- The segments of inline content in a style. -/
def segmentsOf (settings : Settings) : List Inline → RunStyle → List Segment
  | [], _ => []
  | x :: xs, style => x.segments settings style ++ segmentsOf settings xs style

end

/-- Fragments written into a paragraph are segments. -/
theorem inParagraph_forEach (env : Surroundings) (fs : List Fragment) :
    inParagraph (Step.forEach (Fragment.write env true) fs) =
      Step.forEach (Segment.write env) (fs.map .fragment) := by
  rw [inParagraph, Step.mapWritten_forEach, Step.forEach_map]
  rfl

/-- Content that is neither emphasis nor a link is written into a paragraph as its fragments. -/
theorem inParagraph_writeRun (env : Surroundings) (x : Inline) (style : RunStyle) :
    inParagraph (writeRun env true x style) =
      Step.forEach (Segment.write env) ((x.fragments env.settings style).map .fragment) := by
  rw [writeRun_eq, inParagraph_forEach]

mutual

/-- Writing a piece of inline content into a paragraph is writing its segments. -/
theorem writeItem_eq (env : Surroundings) : ∀ (x : Inline) (style : RunStyle),
    writeItem env x style = Step.forEach (Segment.write env) (x.segments env.settings style)
  | .emphasis n children, style => by
    rw [writeItem, Inline.segments, writeItems_eq env children]
  | .link url title children, style => by
    rw [writeItem, Inline.segments]
    split
    · exact writeItems_eq env children style
    · rw [Step.forEach_singleton, Segment.write]
  | .text content, style => by
    rw [writeItem, Inline.segments, inParagraph_writeRun] <;> simp
  | .code content, style => by
    rw [writeItem, Inline.segments, inParagraph_writeRun] <;> simp
  | .lineBreak, style => by
    rw [writeItem, Inline.segments, inParagraph_writeRun] <;> simp
  | .image url title content, style => by
    rw [writeItem, Inline.segments, inParagraph_writeRun] <;> simp
  | .unknown, style => by
    rw [writeItem, Inline.segments, inParagraph_writeRun] <;> simp

/-- Writing inline content into a paragraph is writing its segments one after the other. -/
theorem writeItems_eq (env : Surroundings) : ∀ (xs : List Inline) (style : RunStyle),
    writeItems env xs style = Step.forEach (Segment.write env) (segmentsOf env.settings xs style)
  | [], style => rfl
  | x :: xs, style => by
    rw [writeItems, segmentsOf, Step.forEach_append, writeItem_eq env x, writeItems_eq env xs]

end

end Folio
