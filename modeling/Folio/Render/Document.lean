import Folio.Render.Block

/-!
# Whole documents

Rendering a tree from a fresh state gives a document: the body and the relationships. A document can
be packaged unless the target of a hyperlink holds a character that XML cannot hold.
-/

set_option autoImplicit false
set_option relaxedAutoImplicit false

namespace Folio

open Word

/-- A document: what it adds to the template. -/
structure Document where
  body : List Element
  relationships : Relationships

/-- What building a document leaves: the state, and the document or a failure. -/
abbrev Built := RenderState × Except Failure Document

/-- Builds a document from blocks. -/
def build (env : Surroundings) (blocks : List Block) : Built :=
  match env.faults.create with
  | some message => ({}, .error (.conversion .creation message))
  | none =>
    let o := writeBlocks env blocks {}
    match o.result with
    | .error e => (o.state, .error e)
    | .ok () => (o.state, .ok ⟨o.written, o.state.relationships⟩)

/-- Whether the target of a relationship can be stored in a package. -/
def isStorable (r : Relationship) : Bool :=
  match r.target with
  | .external uri => isCompatibleText uri
  | .image _ => true

/-- Why a document cannot be packaged, if it cannot. -/
def packagingFault? (env : Surroundings) (d : Document) : Option String :=
  match env.faults.save with
  | some message => some message
  | none =>
    if d.relationships.all isStorable then none else some Failure.incompatibleText.message

/-- Builds and packages a document. -/
def render (env : Surroundings) (blocks : List Block) : Built :=
  match build env blocks with
  | (s, .error e) => (s, .error e)
  | (s, .ok d) =>
    match packagingFault? env d with
    | some message => (s, .error (.conversion .packaging message))
    | none => (s, .ok d)

end Folio
