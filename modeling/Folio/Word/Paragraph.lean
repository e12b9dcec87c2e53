import Folio.Word.Run

/-!
# Paragraphs

A paragraph is an optional sequence of properties and a sequence of runs and hyperlinks. A hyperlink
names the relationship that holds its target, and its label is made of runs, so hyperlinks cannot
stand inside one another.
-/

set_option autoImplicit false
set_option relaxedAutoImplicit false

namespace Folio.Word

/-- A piece of a paragraph. -/
inductive ParagraphItem
  | run (content : Run)
  | hyperlink (relationship : Nat) (label : List Run)
  deriving DecidableEq, Repr

/-- A line along one side of a paragraph or a table; its size is in eighths of a point. -/
structure Border where
  side : String
  color : String
  size : Int
  space : Int
  deriving DecidableEq, Repr

/-- The space around a paragraph in twips, and whether its lines are set single. -/
structure Spacing where
  before : Option Int
  after : Option Int
  singleLine : Bool
  deriving DecidableEq, Repr

/-- The indentation of a paragraph in twips; the first line hangs out by `hanging`. -/
structure Indent where
  left : Option Int
  hanging : Option Int
  deriving DecidableEq, Repr

/-- A property of a paragraph. -/
inductive ParagraphProperty
  | borders (sides : List Border)
  | shade (fill : String)
  | spacing (space : Spacing)
  | indent (lengths : Indent)
  deriving DecidableEq, Repr

namespace ParagraphProperty

/-- The place of a property in the order of the schema. -/
def rank : ParagraphProperty → Nat
  | borders _ => 0
  | shade _ => 1
  | spacing _ => 2
  | indent _ => 3

/-- A sequence of properties in which `x` is the one of its kind. -/
def put (x : ParagraphProperty) (props : List ParagraphProperty) : List ParagraphProperty :=
  putProperty (fun y => y.rank = x.rank) (fun y => decide (x.rank < y.rank)) x props

/-- A sequence of properties with another one, behind those of its kind. -/
def add (x : ParagraphProperty) (props : List ParagraphProperty) : List ParagraphProperty :=
  insertBefore (fun y => decide (x.rank < y.rank)) x props

/-- The borders in a sequence of properties. -/
def bordersIn (props : List ParagraphProperty) : List Border :=
  (props.findSome? fun
    | borders sides => some sides
    | _ => none).getD []

/-- The indentation in a sequence of properties. -/
def indentIn (props : List ParagraphProperty) : Indent :=
  (props.findSome? fun
    | indent lengths => some lengths
    | _ => none).getD ⟨none, none⟩

end ParagraphProperty

/-- A paragraph. -/
structure Paragraph where
  properties : Option (List ParagraphProperty)
  items : List ParagraphItem
  deriving DecidableEq, Repr

namespace Paragraph

/-- A paragraph without properties and content. -/
def empty : Paragraph := ⟨none, []⟩

/-- The properties of a paragraph, none if it has no list of them. -/
def propertyList (p : Paragraph) : List ParagraphProperty := p.properties.getD []

/-- A paragraph with its properties changed; from here on it has a list of them. -/
def editProperties (f : List ParagraphProperty → List ParagraphProperty) (p : Paragraph) :
    Paragraph :=
  { p with properties := some (f p.propertyList) }

/-- A paragraph with more content. -/
def append (items : List ParagraphItem) (p : Paragraph) : Paragraph :=
  { p with items := p.items ++ items }

/-! ### Changes of the properties -/

/-- Adds a shading; one that XML cannot hold leaves only the list of properties behind. -/
def addShade (fill : String) : Change Paragraph := fun p =>
  match textFailure? fill with
  | none => (p.editProperties (ParagraphProperty.shade fill).add, none)
  | some e => (p.editProperties id, some e)

/-- Adds a border to those of the paragraph; one that XML cannot hold leaves them as they are. -/
def addBorder (side color : String) (size : Int) : Change Paragraph := fun p =>
  let old := ParagraphProperty.bordersIn p.propertyList
  match textFailure? color with
  | none =>
    (p.editProperties (ParagraphProperty.borders (old ++ [⟨side, color, size, 4⟩])).put, none)
  | some e => (p.editProperties (ParagraphProperty.borders old).put, some e)

/-- The range of a signed length. -/
def maxIndent : Int := 2147483647

/-- Sets the indentation on the left; a length out of range leaves the old one. -/
def setLeftIndent (emu : Int) : Change Paragraph := fun p =>
  let old := ParagraphProperty.indentIn p.propertyList
  if -maxIndent - 1 ≤ emu && emu ≤ maxIndent then
    (p.editProperties (ParagraphProperty.indent { old with left := some (twips emu) }).put, none)
  else
    (p.editProperties (ParagraphProperty.indent old).put,
      some (.lengthOutOfRange (-maxIndent - 1) maxIndent emu))

/-- Lets the first line hang out. -/
def setHanging (emu : Int) : Change Paragraph := .always fun p =>
  let old := ParagraphProperty.indentIn p.propertyList
  p.editProperties (ParagraphProperty.indent { old with hanging := some (twips emu) }).put

/-- Sets the space before and after, and single lines. -/
def setSpacing (before after : Int) : Change Paragraph := .always fun p =>
  p.editProperties
    (ParagraphProperty.spacing ⟨some (twips before), some (twips after), true⟩).put

end Paragraph

end Folio.Word
