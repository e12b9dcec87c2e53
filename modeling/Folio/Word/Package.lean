/-!
# Relationships and image parts

The document refers to what lies outside it by numbered relationships: the targets of hyperlinks,
and the parts of the package that hold images. A relationship to an external target is shared by all
who need that target; a new relationship takes the lowest number that is free, and a new image part
the lowest free number among the images that a relationship still reaches.
-/

set_option autoImplicit false
set_option relaxedAutoImplicit false

namespace Folio.Word

/-- The least number from `start` on that is not in a list. -/
def leastFree (start : Nat) (used : List Nat) : Nat :=
  (((List.range (used.length + 1)).map (start + ·)).find? fun n => !used.contains n).getD
    (start + used.length)

/-- The content of a file. -/
abbrev Bytes := List UInt8

/-- A part of the package that holds an image. -/
structure ImagePart where
  number : Nat
  fileSuffix : String
  contentType : String
  content : Bytes
  deriving DecidableEq, Repr

/-- The name of an image part below the folder of the document. -/
def ImagePart.path (i : ImagePart) : String :=
  "media/image" ++ toString i.number ++ "." ++ i.fileSuffix

/-- What a relationship leads to. -/
inductive Target
  | external (uri : String)
  | image (part : ImagePart)
  deriving DecidableEq, Repr

/-- A numbered relationship. -/
structure Relationship where
  id : Nat
  target : Target
  deriving DecidableEq, Repr

/-- The name of a relationship in the document. -/
def relationshipName (id : Nat) : String := "rId" ++ toString id

/-- The relationships that the document adds to those of the template, in order of their making. -/
abbrev Relationships := List Relationship

namespace Relationships

/-- The first number that the template leaves free. -/
def firstId : Nat := 9

/-- The numbers in use. -/
def ids (rels : Relationships) : List Nat := rels.map (·.id)

/-- The number that a new relationship takes. -/
def nextId (rels : Relationships) : Nat := leastFree firstId rels.ids

/-- The relationship to an external target, if there is one. -/
def external? (rels : Relationships) (uri : String) : Option Relationship :=
  rels.find? fun r => r.target = .external uri

/-- The relationships with one to an external target among them, and its number. -/
def relate (rels : Relationships) (uri : String) : Relationships × Nat :=
  match rels.external? uri with
  | some r => (rels, r.id)
  | none => (rels ++ [⟨rels.nextId, .external uri⟩], rels.nextId)

/-- The image parts that the relationships reach. -/
def images (rels : Relationships) : List ImagePart :=
  rels.filterMap fun r =>
    match r.target with
    | .image part => some part
    | .external _ => none

/-- The number that a new image part takes. -/
def nextImage (rels : Relationships) : Nat := leastFree 1 (rels.images.map (·.number))

/-- The relationships with a new image part, and the number of the relationship to it. -/
def register (rels : Relationships) (content : Bytes) (contentType fileSuffix : String) :
    Relationships × Nat :=
  (rels ++ [⟨rels.nextId, .image ⟨rels.nextImage, fileSuffix, contentType, content⟩⟩], rels.nextId)

/-- The relationships without the one with a number. -/
def erase (rels : Relationships) (id : Nat) : Relationships := rels.filter fun r => r.id ≠ id

/-- Gives up one use of a relationship: it goes unless two hyperlinks of the document use it, where
`uses` lists the relationships of all hyperlinks of the document. -/
def drop (rels : Relationships) (uses : List Nat) (id : Nat) : Relationships :=
  if uses.count id < 2 then rels.erase id else rels

end Relationships

end Folio.Word
