import Folio.Word.Package
import Folio.Word.Table

/-!
# Documents as XML

The XML elements that runs, paragraphs and tables stand for, with the prefixes that the document
format uses for its name spaces. Attributes are listed in the order of their names.
-/

set_option autoImplicit false
set_option relaxedAutoImplicit false

namespace Folio.Word

/-- An XML element, or the text in one. -/
inductive Xml
  | element (name : String) (attributes : List (String × String)) (children : List Xml)
  | text (content : String)

namespace Xml

/-- An element without children. -/
def leaf (name : String) (attributes : List (String × String)) : Xml := element name attributes []

/-- An element without attributes. -/
def node (name : String) (children : List Xml) : Xml := element name [] children

/-- One attribute with a space in front. -/
def attributeText (a : String × String) : String :=
  " " ++ a.1 ++ "=\"" ++ escapedAttribute a.2 ++ "\""

mutual

/-- The text of an element. -/
def toString : Xml → String
  | .text content => escaped content
  | .element name attributes children =>
    let opening := "<" ++ name ++ String.join (attributes.map attributeText)
    match contentText children with
    | "" => opening ++ "/>"
    | content => opening ++ ">" ++ content ++ "</" ++ name ++ ">"

/-- The text between the tags of an element. -/
def contentText : List Xml → String
  | [] => ""
  | x :: xs => x.toString ++ contentText xs

end

end Xml

/-- An optional attribute. -/
def optionalAttribute (name : String) (value : Option String) : List (String × String) :=
  (value.map fun v => (name, v)).toList

/-- A shading. -/
def shadeXml (fill : String) : Xml :=
  .leaf "w:shd" [("w:color", "auto"), ("w:fill", fill), ("w:val", "clear")]

/-- A switch: on without an attribute, off with a zero. -/
def switchXml (name : String) (on : Bool) : Xml :=
  .leaf name (if on then [] else [("w:val", "0")])

/-- A property of a run. -/
def RunProperty.xml : RunProperty → Xml
  | fonts none => .leaf "w:rFonts" []
  | fonts (some name) => .leaf "w:rFonts" [("w:ascii", name), ("w:hAnsi", name)]
  | bold on => switchXml "w:b" on
  | italic on => switchXml "w:i" on
  | color hex => .leaf "w:color" [("w:val", hex)]
  | size halfPoints =>
    .leaf "w:sz" (optionalAttribute "w:val" (halfPoints.map fun n => s!"{n}"))
  | underline => .leaf "w:u" [("w:val", "single")]
  | shade fill => shadeXml fill

/-- The element that draws a picture. -/
def Drawing.xml (d : Drawing) : Xml :=
  let extent := [("cx", s!"{d.width}"), ("cy", s!"{d.height}")]
  .node "w:drawing" [.node "wp:inline" [
    .leaf "wp:extent" extent,
    .leaf "wp:docPr" [("id", s!"{d.number}"), ("name", s!"Picture {d.number}")],
    .node "wp:cNvGraphicFramePr" [.leaf "a:graphicFrameLocks" [("noChangeAspect", "1")]],
    .node "a:graphic" [.element "a:graphicData"
      [("uri", "http://schemas.openxmlformats.org/drawingml/2006/picture")] [
      .node "pic:pic" [
        .node "pic:nvPicPr" [
          .leaf "pic:cNvPr" [("id", "0"), ("name", d.name)],
          .leaf "pic:cNvPicPr" []],
        .node "pic:blipFill" [
          .leaf "a:blip" [("r:embed", relationshipName d.relationship)],
          .node "a:stretch" [.leaf "a:fillRect" []]],
        .node "pic:spPr" [
          .node "a:xfrm" [
            .leaf "a:off" [("x", "0"), ("y", "0")],
            .leaf "a:ext" extent],
          .leaf "a:prstGeom" [("prst", "rect")]]]]]]]

/-- A piece of the content of a run. -/
def RunItem.xml : RunItem → Xml
  | text value keepSpace =>
    .element "w:t" (if keepSpace then [("xml:space", "preserve")] else []) [.text value]
  | tab => .leaf "w:tab" []
  | lineBreak => .leaf "w:br" []
  | drawing picture => picture.xml

/-- An element for a sequence of properties, if there is one. -/
def propertiesXml (name : String) (properties : Option (List Xml)) : List Xml :=
  (properties.map (.node name)).toList

/-- A run. -/
def Run.xml (r : Run) : Xml :=
  .node "w:r" (propertiesXml "w:rPr" (r.properties.map (·.map RunProperty.xml)) ++
    r.items.map RunItem.xml)

/-- A border. -/
def Border.xml (b : Border) : Xml :=
  .leaf ("w:" ++ b.side)
    [("w:color", b.color), ("w:space", s!"{b.space}"), ("w:sz", s!"{b.size}"), ("w:val", "single")]

/-- A property of a paragraph. -/
def ParagraphProperty.xml : ParagraphProperty → Xml
  | borders sides => .node "w:pBdr" (sides.map Border.xml)
  | shade fill => shadeXml fill
  | spacing space =>
    .leaf "w:spacing" (optionalAttribute "w:after" (space.after.map fun n => s!"{n}") ++
      optionalAttribute "w:before" (space.before.map fun n => s!"{n}") ++
      if space.singleLine then [("w:line", "240"), ("w:lineRule", "auto")] else [])
  | indent lengths =>
    .leaf "w:ind" (optionalAttribute "w:hanging" (lengths.hanging.map fun n => s!"{n}") ++
      optionalAttribute "w:left" (lengths.left.map fun n => s!"{n}"))

/-- A piece of a paragraph. -/
def ParagraphItem.xml : ParagraphItem → Xml
  | run content => content.xml
  | hyperlink relationship label =>
    .element "w:hyperlink" [("r:id", relationshipName relationship)] (label.map Run.xml)

/-- A paragraph. -/
def Paragraph.xml (p : Paragraph) : Xml :=
  .node "w:p" (propertiesXml "w:pPr" (p.properties.map (·.map ParagraphProperty.xml)) ++
    p.items.map ParagraphItem.xml)

/-- A property of a table. -/
def TableProperty.xml : TableProperty → Xml
  | style name => .leaf "w:tblStyle" [("w:val", name)]
  | width .automatic => .leaf "w:tblW" [("w:type", "auto"), ("w:w", "0")]
  | width .full => .leaf "w:tblW" [("w:type", "pct"), ("w:w", "5000")]
  | borders sides => .node "w:tblBorders" (sides.map Border.xml)
  | look =>
    .leaf "w:tblLook" [("w:firstColumn", "1"), ("w:firstRow", "1"), ("w:lastColumn", "0"),
      ("w:lastRow", "0"), ("w:noHBand", "0"), ("w:noVBand", "1"), ("w:val", "04A0")]

/-- A property of a cell. -/
def CellProperty.xml : CellProperty → Xml
  | width twips => .leaf "w:tcW" [("w:type", "dxa"), ("w:w", s!"{twips}")]
  | shade fill => shadeXml fill

/-- A cell. -/
def Cell.xml (c : Cell) : Xml :=
  .node "w:tc" [.node "w:tcPr" (c.properties.map CellProperty.xml), c.content.xml]

/-- A table. -/
def Table.xml (t : Table) : Xml :=
  .node "w:tbl" (.node "w:tblPr" (t.properties.map TableProperty.xml) ::
    .node "w:tblGrid" (t.columns.map fun w => .leaf "w:gridCol" [("w:w", s!"{w}")]) ::
    t.rows.map fun row => .node "w:tr" (row.map Cell.xml))

/-- A part of the body. -/
def Element.xml : Element → Xml
  | paragraph content => content.xml
  | table content => content.xml

end Folio.Word
