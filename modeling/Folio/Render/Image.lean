import Folio.Render.Step
import Folio.Style

/-!
# Images in runs

An image is loaded once for each source. If that gives an image, it becomes a part of the package
and the run draws it at the size that the settings give; otherwise the run shows a caption instead.
-/

set_option autoImplicit false
set_option relaxedAutoImplicit false

namespace Folio

open Word

/-- Loads an image that has not been loaded before. -/
def loadAnew (env : Surroundings) (url : String) (s : RenderState) :
    RenderState × Except Failure Fetched :=
  if Url.isRemote url then
    match env.fetcher with
    | .shared (some refusal) => (s, .error (.settings refusal))
    | _ =>
      let s := s.note .debug ("GET " ++ url)
      let (requests, result) := fetchImage env.web s.requests url
      ({ s with requests := requests }, result)
  else (s, readLocalImage env.files env.assetRoot url)

/-- Loads an image; each source is loaded at most once. -/
def loadImage (env : Surroundings) (url : String) (s : RenderState) :
    RenderState × Except Failure Fetched :=
  match s.loaded? url with
  | some fetched => (s, .ok fetched)
  | none =>
    match loadAnew env url s with
    | (s, .error e) => (s, .error e)
    | (s, .ok fetched) => ({ s with images := s.images ++ [(url, fetched)] }, .ok fetched)

/-- The answer of the registry to the next registration of a relationship. -/
def askRegistry (env : Surroundings) (s : RenderState) : RenderState × Option Failure :=
  ({ s with registrations := s.registrations + 1 },
    (env.faults.relate s.registrations).map Failure.service)

/-- Makes an image a part of the package and returns the number of the relationship to it. -/
def registerImage (env : Surroundings) (kind : ImageKind) (content : Bytes) (s : RenderState) :
    RenderState × Option Nat :=
  match env.faults.register with
  | some _ => (s, none)
  | none =>
    match askRegistry env s with
    | (s, some _) => (s, none)
    | (s, none) =>
      let (rels, id) := s.relationships.register content kind.mediaType kind.fileSuffix
      ({ s with relationships := rels }, some id)

/-- The name of the file that an image comes from. -/
def imageFileName (url : String) (kind : ImageKind) : String :=
  if (urlPath url).name = "" then "image." ++ kind.fileSuffix else (urlPath url).name

/-- The drawing of an image, if its size and its file name fit a document. -/
def drawing? (settings : Settings) (relationship number : Nat) (name : String) :
    Option Drawing := do
  let width ← emuOfInches? settings.imageWidth
  let height ← emuOfInches? settings.imageHeight
  if isCompatibleText name && isDrawingExtent width && isDrawingExtent height then
    some ⟨relationship, number, name, width, height⟩
  else none

/-- Registers an image and draws it. If drawing fails the image stays registered. -/
def drawImage (env : Surroundings) (url : String) (kind : ImageKind) (content : Bytes)
    (s : RenderState) : RenderState × Option Drawing :=
  match registerImage env kind content s with
  | (s, none) => (s, none)
  | (s, some id) => (s, drawing? env.settings id s.nextDrawing (imageFileName url kind))

/-- The caption that stands for a missing image. -/
def caption (alt : String) : String := "[Image: " ++ alt ++ "]"

/-- Turns a run into the caption for a missing image. -/
def captionRun (settings : Settings) (alt : String) (style : RunStyle) : Change Run :=
  Change.all [
    Run.overwrite (caption alt),
    (style.merge (.ofCaption settings)).apply settings.codeFont,
    .always Run.keepingSpace]

/-- Writes a run with the image at a URL, or with a caption, and returns whether it is the image.
`attached` tells whether the run is a part of the document already. -/
def embedImage (env : Surroundings) (attached : Bool) (url alt : String) (style : RunStyle) :
    Step Run Bool := do
  let fetched ← (Step.update (loadImage env url)).leaving [Run.empty]
  match fetched with
  | .missing why =>
    Step.note .warning ("Image " ++ url ++ " not embedded: " ++ why.message)
    Step.make Run.empty (captionRun env.settings alt style)
    return false
  | .image content mediaType =>
    let kind := imageKind url mediaType
    let drawing ← Step.update fun s =>
      let (s, d) := drawImage env url kind content s
      (s, .ok d)
    match drawing with
    | none =>
      Step.note .warning ("Could not embed image " ++ url)
      Step.make Run.empty (captionRun env.settings alt style)
      return false
    | some d =>
      Step.write (Run.empty.append (.drawing d))
      if attached then Step.modify (.attachDrawing d.number)
      Step.note .debug
        ("Embedded " ++ url ++ " (" ++ toString content.length ++ " bytes) as " ++ kind.mediaType)
      return true

end Folio
