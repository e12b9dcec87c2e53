import Folio.Convert.Output
import Folio.Markdown.Parse
import Folio.Render.Document

/-!
# Converting Markdown

From the text of a Markdown file to a document, and from a document to a file.
-/

set_option autoImplicit false
set_option relaxedAutoImplicit false

namespace Folio

/-- What reading a text comes to: what is noted meanwhile, and the blocks or why there are none. -/
structure Reading where
  log : List LogRecord := []
  blocks : Except String (List Block)

/-- What is noted of the tokens of a text that have no place in its tree. -/
def strayLog (text : String) : List LogRecord :=
  let stray := match Markdown.tokens text with
    | .ok ts => Markdown.strayTokens ts
    | .error _ => []
  stray.map fun (amongBlocks, name) =>
    ⟨.debug, "Skipping unsupported " ++ (if amongBlocks then "block" else "inline") ++ " token " ++
      name⟩

/-- Reads a Markdown text. -/
def readText (text : String) : Reading where
  log := strayLog text
  blocks := (Markdown.parse text).mapError Markdown.Fault.message

/-- The blocks of a text that `read` reads, or why it cannot be read. -/
def readBlocks (read : String → Reading) (env : Surroundings) (text : String) :
    Except Failure (List Block) :=
  match env.faults.parse, (read text).blocks with
  | some message, _ => .error (.conversion .reading message)
  | none, .error message => .error (.conversion .reading message)
  | none, .ok blocks => .ok blocks

/-- Converts a text that `read` reads into a document that can be packaged. -/
def convertWith (read : String → Reading) (env : Surroundings) (text : String) : Built :=
  match readBlocks read env text with
  | .error e => ({}, .error e)
  | .ok blocks =>
    let (s, result) := render env blocks
    let parsed : LogRecord :=
      ⟨.debug, "Parsed " ++ toString blocks.length ++ " top-level blocks"⟩
    ({ s with log := (read text).log ++ [parsed] ++ s.log }, result)

/-- Converts a Markdown text into a document that can be packaged. -/
def convertMarkdown (env : Surroundings) (text : String) : Built := convertWith readText env text

/-- How a document becomes the content of a file. -/
abbrev Packager := Document → List UInt8

/-- Why a document is not saved. -/
inductive SaveFault
  | conversion (failure : Failure)
  | output (fault : OutputFault)
  deriving DecidableEq, Repr

/-- Renders blocks and saves the document; nothing is written unless the document can be packaged. -/
def saveDocument (package : Packager) (env : Surroundings) (path : PurePath)
    (blocks : List Block) : RenderState × FileTree × Except SaveFault Document :=
  match render env blocks with
  | (s, .error e) => (s, env.files, .error (.conversion e))
  | (s, .ok d) =>
    match writeOutput env.files path (package d) with
    | (files, some fault) => (s, files, .error (.output fault))
    | (files, none) => (s, files, .ok d)

end Folio
