import Folio.Render.Image
import Folio.Tree.Text
import Folio.Url.Target
import Folio.Word.Paragraph

/-!
# Inline content in paragraphs

Inline content is written in one of two ways. `writeRuns` writes runs only, as they are needed for
the label of a hyperlink: links in it are written as their labels. `writeItems` writes the content of
a paragraph, where every link with a target becomes a hyperlink. A hyperlink that cannot be built is
taken back, and its label is written as runs.
-/

set_option autoImplicit false
set_option relaxedAutoImplicit false

namespace Folio

open Word

/-- A run with a text in a style. -/
def textRun (settings : Settings) (text : String) (style : RunStyle) : Change Run :=
  Change.all [Run.write text, style.apply settings.codeFont, .always Run.keepingSpace]

/-- Writes a text as a run. -/
def writeText (env : Surroundings) (text : String) (style : RunStyle) : Step Run Unit :=
  Step.make Run.empty (textRun env.settings text style)

/-- Writes a line break as a run. -/
def writeBreak : Step Run Unit := Step.write (Run.empty.append .lineBreak)

/-- The alternative text of an image: the text of its content, or its title. -/
def altText (title : Option String) (content : List Inline) : String :=
  let text := trimmed (plainTextOf content)
  if text = "" then title.getD "" else text

/-- Writes an image as a run; one without a source is written as its caption. -/
def writeImage (env : Surroundings) (attached : Bool) (url : String) (title : Option String)
    (content : List Inline) (style : RunStyle) : Step Run Unit :=
  if isBlankText url then
    Step.make Run.empty (captionRun env.settings (altText title content) style)
  else do
    let _ ← embedImage env attached url (altText title content) style

mutual

/-- Writes a piece of inline content as runs. `attached` tells whether the runs become part of the
document as they are written. What is unknown is skipped without a record of it in the log. -/
def writeRun (env : Surroundings) (attached : Bool) : Inline → RunStyle → Step Run Unit
  | .text content, style => writeText env content style
  | .emphasis n children, style => writeRuns env attached children (style.merge (.ofEmphasis n))
  | .code content, style => writeText env content (style.merge (.ofCode env.settings))
  | .lineBreak, _ => writeBreak
  | .image url title content, style => writeImage env attached url title content style
  | .link url _ children, style =>
    if isBlankText url || anyVisible children then writeRuns env attached children style
    else writeText env url style
  | .unknown, _ => Step.done ()

/-- Writes inline content as runs. -/
def writeRuns (env : Surroundings) (attached : Bool) : List Inline → RunStyle → Step Run Unit
  | [], _ => Step.done ()
  | x :: xs, style => (writeRun env attached x style).bind fun _ => writeRuns env attached xs style

end

/-- Writes the label of a link as runs: its content, or its target if the content shows nothing. -/
def writeLabel (env : Surroundings) (attached : Bool) (url : String) (children : List Inline)
    (style : RunStyle) : Step Run Unit :=
  if anyVisible children then writeRuns env attached children style else writeText env url style

/-! ### Hyperlinks -/

/-- The largest number of the drawings in a sequence of runs, zero if there are none. -/
def lastDrawingOf (runs : List Run) : Nat :=
  ((runs.flatMap (·.items)).map fun
    | .drawing d => d.number
    | _ => 0).foldl max 0

/-- The relationships of the images drawn in a sequence of runs. -/
def drawnRelationships (runs : List Run) : List Nat :=
  (runs.flatMap (·.items)).filterMap fun
    | .drawing d => some d.relationship
    | _ => none

/-- The state after a hyperlink that could not be built is taken back: the relationship to its
target and those of the images in its label are given up. -/
def takeBack (id : Nat) (label : List Run) (s : RenderState) : RenderState :=
  { s with
    relationships := (id :: drawnRelationships label).foldl
      (fun rels i => rels.drop s.linked i) s.relationships }

/-- The state after the target of a link has been looked at: a target that cannot be split is
logged. -/
def noteTarget (url : String) (s : RenderState) : RenderState :=
  if Url.isSplittable (Url.normalized url) then s
  else s.note .warning ("Unparseable link target " ++ quoted url ++ ", using " ++ Url.placeholder)

/-- Writes a hyperlink with a label, and returns whether it could be built. -/
def writeHyperlink (env : Surroundings) (url : String) (label : Step Run Unit) :
    Step ParagraphItem Bool := fun s =>
  let complaint := "Could not build hyperlink to " ++ quoted url ++ ", rendering label as text"
  match askRegistry env (noteTarget url s) with
  | (s, some _) => ⟨[], s.note .warning complaint, .ok false⟩
  | (s, none) =>
    let (rels, id) := s.relationships.relate (Url.resolved url)
    let o := label { s with relationships := rels }
    match o.result with
    | .error _ => ⟨[], takeBack id o.written (o.state.note .warning complaint), .ok false⟩
    | .ok () =>
      let s := o.state.attachDrawing (lastDrawingOf o.written)
      ⟨[.hyperlink id o.written], { s with linked := s.linked ++ [id] }, .ok true⟩

/-- Writes runs into a paragraph of the document. -/
def inParagraph (runs : Step Run Unit) : Step ParagraphItem Unit := runs.mapWritten .run

/-- Writes a link as a hyperlink, or its label as runs if that cannot be. -/
def writeLink (env : Surroundings) (url : String) (children : List Inline) (style : RunStyle) :
    Step ParagraphItem Unit :=
  (writeHyperlink env url
    (writeLabel env false url children (style.merge (.ofLink env.settings)))).bind fun built =>
      if built then Step.done () else inParagraph (writeLabel env true url children style)

mutual

/-- Writes a piece of inline content into a paragraph of the document. -/
def writeItem (env : Surroundings) : Inline → RunStyle → Step ParagraphItem Unit
  | .emphasis n children, style => writeItems env children (style.merge (.ofEmphasis n))
  | .link url _ children, style =>
    if isBlankText url then writeItems env children style else writeLink env url children style
  | leaf, style => inParagraph (writeRun env true leaf style)

/-- Writes inline content into a paragraph of the document. -/
def writeItems (env : Surroundings) : List Inline → RunStyle → Step ParagraphItem Unit
  | [], _ => Step.done ()
  | x :: xs, style => (writeItem env x style).bind fun _ => writeItems env xs style

end

@[simp] theorem writeRuns_nil (env : Surroundings) (attached : Bool) (style : RunStyle) :
    writeRuns env attached [] style = Step.done () := rfl

@[simp] theorem writeItems_nil (env : Surroundings) (style : RunStyle) :
    writeItems env [] style = Step.done () := rfl

end Folio
