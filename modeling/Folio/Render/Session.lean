import Folio.Render.Block

/-!
# Sessions

A session builds a document step by step: blocks, inline content, single hyperlinks and images, with
one state through all steps. A step that fails leaves what it has written, and the session goes on.
-/

set_option autoImplicit false
set_option relaxedAutoImplicit false

namespace Folio

open Word

/-- A step of a session. `continued` puts the content into the paragraph that the last step of its
sort made, instead of a new one. -/
inductive SessionStep
  | block (content : Block)
  | inlines (content : List Inline) (style : RunStyle) (runsOnly continued : Bool)
  | link (url : String) (label : List String) (content : List Inline) (style : RunStyle)
      (failing continued : Bool)
  | image (url alt : String) (style : RunStyle) (continued : Bool)
  | load (url : String)
  | depth (value : Int)
  | network (web : Web)

/-- What a step of a session returns. -/
inductive SessionValue
  | nothing
  | flag (value : Bool)
  | fetched (value : Fetched)

/-- A session: the body so far, the place of the paragraph that a step may continue, the state, and
the network that answers. -/
structure Session where
  body : List Element := []
  current : Option Nat := none
  state : RenderState := {}
  web : Web

namespace Session

/-- A list with the element at a place changed. -/
def changeAt {α : Type} (f : α → α) : Nat → List α → List α
  | _, [] => []
  | 0, x :: xs => f x :: xs
  | n + 1, x :: xs => x :: changeAt f n xs

/-- An element with more content, if it is a paragraph. -/
def extend (items : List ParagraphItem) : Element → Element
  | .paragraph p => .paragraph (p.append items)
  | other => other

/-- A session in which a step wrote into a paragraph. -/
def intoParagraph {α : Type} (x : Session) (continued : Bool) (step : Step ParagraphItem α) :
    Session × Except Failure α :=
  let o := step x.state
  match if continued then x.current else none with
  | some i => ({ x with body := changeAt (extend o.written) i x.body, state := o.state }, o.result)
  | none =>
    ({ x with
        body := x.body ++ [.paragraph (Paragraph.empty.append o.written)]
        current := some x.body.length
        state := o.state }, o.result)

/-- The label of a link: unstyled texts, then inline content, then a failure if there is to be
one. -/
def linkLabel (env : Surroundings) (texts : List String) (content : List Inline)
    (style : RunStyle) (failing : Bool) : Step Run Unit :=
  (Step.forEach (fun t => Step.make Run.empty (Run.write t)) texts).bind fun _ =>
    (writeRuns env false content style).bind fun _ =>
      if failing then Step.fail (.service "label refused") else Step.done ()

/-- The image of a step, as a run of a paragraph. -/
def imageItem (env : Surroundings) (url alt : String) (style : RunStyle) :
    Step ParagraphItem Bool :=
  (embedImage env true url alt style).mapWritten .run

/-- One step of a session. -/
def step (env : Surroundings) (x : Session) (s : SessionStep) :
    Session × Except Failure SessionValue :=
  let env := { env with web := x.web }
  match s with
  | .block b =>
    let o := writeBlock env b x.state
    ({ x with body := x.body ++ o.written, state := o.state }, o.result.map fun _ => .nothing)
  | .inlines content style runsOnly continued =>
    let (y, r) := x.intoParagraph continued
      (if runsOnly then inParagraph (writeRuns env true content style)
        else writeItems env content style)
    (y, r.map fun _ => .nothing)
  | .link url label content style failing continued =>
    let (y, r) := x.intoParagraph continued
      (writeHyperlink env url (linkLabel env label content style failing))
    (y, r.map .flag)
  | .image url alt style continued =>
    let (y, r) := x.intoParagraph continued (imageItem env url alt style)
    (y, r.map .flag)
  | .load url =>
    let (state, r) := loadImage env url x.state
    ({ x with state := state }, r.map .fetched)
  | .depth value => ({ x with state := { x.state with listDepth := value } }, .ok .nothing)
  | .network web =>
    let earlier := x.state.requests.length
    ({ x with web := fun requests url => web (requests.drop earlier) url }, .ok .nothing)

end Session

end Folio
