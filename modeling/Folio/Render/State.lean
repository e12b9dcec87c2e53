import Folio.Fetch.Kind
import Folio.Fetch.Local
import Folio.Fetch.Web
import Folio.Settings.Basic
import Folio.Word.Package

/-!
# What rendering knows

`Surroundings` is what a rendering is given and never changes: the settings, the network, the files,
and which services fail. `RenderState` is what it keeps while it works, and keeps when a step fails:
the relationships of the document, which of them hyperlinks of the document use, the largest number
of a drawing of the document, the images loaded so far, the requests made, the depth of lists, and
the log.
-/

set_option autoImplicit false
set_option relaxedAutoImplicit false

namespace Folio

/-- How important a log record is. -/
inductive LogLevel
  | debug
  | info
  | warning
  | error
  deriving DecidableEq, Repr

/-- The name of a level. -/
def LogLevel.name : LogLevel → String
  | debug => "DEBUG"
  | info => "INFO"
  | warning => "WARNING"
  | error => "ERROR"

/-- A log record. -/
structure LogRecord where
  level : LogLevel
  message : String
  deriving DecidableEq, Repr

/-- A log record as a line. -/
def LogRecord.line (r : LogRecord) : String := r.level.name ++ " " ++ r.message

/-- Services that fail, each with its message: reading Markdown, registering the `n`-th relationship,
registering image parts at all, creating the empty document and writing the package. -/
structure Faults where
  parse : Option String := none
  relate : Nat → Option String := fun _ => none
  register : Option String := none
  create : Option String := none
  save : Option String := none

/-- Who fetches images from the network: a fetcher that the caller provides, or one shared by all
callers, which exists only if its settings are accepted. -/
inductive Fetcher
  | given
  | shared (refusal : Option String)
  deriving DecidableEq, Repr

/-- What a rendering is given. -/
structure Surroundings where
  settings : Settings := {}
  web : Web := fun _ _ => .response 404 [] none
  fetcher : Fetcher := .given
  files : FileTree := { workingDirectory := [] }
  assetRoot : Option PurePath := none
  faults : Faults := {}

/-- What a rendering keeps. -/
structure RenderState where
  relationships : Word.Relationships := []
  linked : List Nat := []
  lastDrawing : Nat := 0
  images : List (String × Fetched) := []
  requests : List String := []
  registrations : Nat := 0
  listDepth : Int := 0
  log : List LogRecord := []

namespace RenderState

/-- A state with one more log record. -/
def note (level : LogLevel) (message : String) (s : RenderState) : RenderState :=
  { s with log := s.log ++ [⟨level, message⟩] }

/-- The result of loading an image earlier. -/
def loaded? (s : RenderState) (url : String) : Option Fetched :=
  (s.images.find? fun entry => entry.1 = url).map (·.2)

/-- The number that a new drawing takes. -/
def nextDrawing (s : RenderState) : Nat := s.lastDrawing + 1

/-- A state in which a drawing has become part of the document. -/
def attachDrawing (number : Nat) (s : RenderState) : RenderState :=
  { s with lastDrawing := max s.lastDrawing number }

end RenderState

end Folio
