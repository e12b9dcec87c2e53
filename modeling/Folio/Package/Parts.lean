import Folio.Package.Archive
import Folio.Render.Document
import Folio.Word.Markup

/-!
# Packages

A document file is an archive of parts: the document itself, the images, what each part is, and the
relationships that lead from the package to the document and from the document to what lies outside
it. This is the program's own way to package documents; a run takes any other just as well
(`Packager`).
-/

set_option autoImplicit false
set_option relaxedAutoImplicit false

namespace Folio.Package

open Word

/-- What the names of the schemas start with. -/
def schema (path : String) : String := "http://schemas.openxmlformats.org/" ++ path

/-- An XML part. -/
def xmlPart (name : String) (root : Xml) : ArchiveFile :=
  ⟨name, ("<?xml version=\"1.0\" encoding=\"UTF-8\" standalone=\"yes\"?>\n" ++
    root.toString).toUTF8.toList⟩

/-- The prefixes of the document with the schemas that they stand for. -/
def prefixes : List (String × String) :=
  [("xmlns:a", schema "drawingml/2006/main"),
   ("xmlns:pic", schema "drawingml/2006/picture"),
   ("xmlns:r", schema "officeDocument/2006/relationships"),
   ("xmlns:w", schema "wordprocessingml/2006/main"),
   ("xmlns:wp", schema "drawingml/2006/wordprocessingDrawing")]

/-- The document. -/
def bodyPart (d : Document) : ArchiveFile :=
  xmlPart "word/document.xml"
    (.element "w:document" prefixes [.node "w:body" (d.body.map Element.xml)])

/-- A relationship of a kind. -/
def relationshipXml (id kind target : String) (external : Bool) : Xml :=
  .leaf "Relationship" ([("Id", id), ("Target", target)] ++
    (if external then [("TargetMode", "External")] else []) ++
    [("Type", schema "officeDocument/2006/relationships/" ++ kind)])

/-- Relationships as a part. -/
def relationshipsPart (name : String) (relationships : List Xml) : ArchiveFile :=
  xmlPart name
    (.element "Relationships" [("xmlns", schema "package/2006/relationships")] relationships)

/-- The relationships of the document. -/
def documentRelationships (d : Document) : ArchiveFile :=
  relationshipsPart "word/_rels/document.xml.rels" (d.relationships.map fun r =>
    match r.target with
    | .external uri => relationshipXml (relationshipName r.id) "hyperlink" uri true
    | .image part => relationshipXml (relationshipName r.id) "image" part.path false)

/-- What the parts are, by the suffixes of their names. -/
def contentTypes (d : Document) : ArchiveFile :=
  let suffixes := (d.relationships.images.map fun i => (i.fileSuffix, i.contentType)).eraseDups
  xmlPart "[Content_Types].xml" (.element "Types" [("xmlns", schema "package/2006/content-types")]
    (([("rels", "application/vnd.openxmlformats-package.relationships+xml"),
        ("xml", "application/vnd.openxmlformats-officedocument.wordprocessingml.document.main+xml")]
      ++ suffixes).map fun e => .leaf "Default" [("ContentType", e.2), ("Extension", e.1)]))

/-- The parts of a document. -/
def parts (d : Document) : List ArchiveFile :=
  [contentTypes d,
   relationshipsPart "_rels/.rels"
    [relationshipXml "rId1" "officeDocument" "word/document.xml" false],
   bodyPart d, documentRelationships d] ++
  d.relationships.images.map fun i => ⟨"word/" ++ i.path, i.content⟩

/-- The content of the file of a document. -/
def content (d : Document) : List UInt8 := archive (parts d)

end Folio.Package
