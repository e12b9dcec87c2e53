import Folio.Word.Character
import Folio.Word.Color
import Folio.Word.Length
import Folio.Word.Sequence

/-!
# Runs

A run is a piece of a paragraph with one look: an optional sequence of properties and then its
content, which is made of texts, tabs, line breaks and drawings. The changes of a run's properties
keep them in schema order (`RunProperty.rank`).
-/

set_option autoImplicit false
set_option relaxedAutoImplicit false

namespace Folio.Word

/-- A picture in the flow of text: the relationship of its image, its number among the drawings, the
file name it carries and its extent. -/
structure Drawing where
  relationship : Nat
  number : Nat
  name : String
  width : Int
  height : Int
  deriving DecidableEq, Repr

/-- A piece of the content of a run. -/
inductive RunItem
  | text (value : String) (keepSpace : Bool)
  | tab
  | lineBreak
  | drawing (picture : Drawing)
  deriving DecidableEq, Repr

/-- A property of a run. -/
inductive RunProperty
  | fonts (name : Option String)
  | bold (on : Bool)
  | italic (on : Bool)
  | color (hex : String)
  | size (halfPoints : Option Int)
  | underline
  | shade (fill : String)
  deriving DecidableEq, Repr

namespace RunProperty

/-- The place of a property in the order of the schema. -/
def rank : RunProperty → Nat
  | fonts _ => 0
  | bold _ => 1
  | italic _ => 2
  | color _ => 3
  | size _ => 4
  | underline => 5
  | shade _ => 6

/-- A sequence of properties in which `x` is the one of its kind. -/
def put (x : RunProperty) (props : List RunProperty) : List RunProperty :=
  putProperty (fun y => y.rank = x.rank) (fun y => decide (x.rank < y.rank)) x props

/-- A sequence of properties with another one, behind those of its kind. -/
def add (x : RunProperty) (props : List RunProperty) : List RunProperty :=
  insertBefore (fun y => decide (x.rank < y.rank)) x props

end RunProperty

/-- A run. -/
structure Run where
  properties : Option (List RunProperty)
  items : List RunItem
  deriving DecidableEq, Repr

namespace Run

/-- A run without properties and content. -/
def empty : Run := ⟨none, []⟩

/-- The properties of a run, none if it has no list of them. -/
def propertyList (r : Run) : List RunProperty := r.properties.getD []

/-- A run with its properties changed; from here on it has a list of them. -/
def editProperties (f : List RunProperty → List RunProperty) (r : Run) : Run :=
  { r with properties := some (f r.propertyList) }

/-- A run with one more piece of content. -/
def append (item : RunItem) (r : Run) : Run := { r with items := r.items ++ [item] }

/-- A run in which every text keeps its blanks. -/
def keepingSpace (r : Run) : Run :=
  { r with items := r.items.map fun
      | .text value _ => .text value true
      | item => item }

/-! ### Content from text -/

/-- A text in the content of a run. It keeps its blanks if it starts or ends with one. -/
def textItem (cs : List Char) : RunItem :=
  .text (String.ofList cs) (decide ((trimChars cs).length < cs.length))

/-- The pieces of content that a text stands for: tabs and line ends have pieces of their own, and
the characters between them make texts. `pending` holds the characters read since the last piece,
latest first. -/
def itemsFrom (pending : List Char) : List Char → List RunItem
  | [] => flush pending
  | c :: cs =>
    if c = '\t' then flush pending ++ .tab :: itemsFrom [] cs
    else if c = '\n' || c = '\r' then flush pending ++ .lineBreak :: itemsFrom [] cs
    else itemsFrom (c :: pending) cs
where
  /-- The text of the pending characters, if there are any. -/
  flush (pending : List Char) : List RunItem :=
    if pending.isEmpty then [] else [textItem pending.reverse]

/-- The pieces of content that a text stands for. -/
def itemsOf (s : String) : List RunItem := itemsFrom [] s.toList

/-- Whether XML can hold a piece of content. -/
def isCompatibleItem : RunItem → Bool
  | .text value _ => isCompatibleText value
  | _ => true

/-- Adds the pieces of content of a text up to the first that XML cannot hold. -/
def write (s : String) : Change Run := fun r =>
  let items := itemsOf s
  let fitting := items.takeWhile isCompatibleItem
  ({ r with items := r.items ++ fitting },
    if fitting.length = items.length then none else some .incompatibleText)

/-- Replaces the content of a run by that of a text. -/
def overwrite (s : String) : Change Run := fun r => write s { r with items := [] }

/-! ### Changes of the properties -/

/-- Makes a property the one of its kind. -/
def setProperty (x : RunProperty) : Change Run := .always (editProperties x.put)

/-- Gives a run a font; if XML cannot hold the name, the property stays without one. -/
def setFont (name : String) : Change Run := fun r =>
  match textFailure? name with
  | none => (editProperties (RunProperty.fonts (some name)).put r, none)
  | some e =>
    (r.editProperties fun props =>
      if props.any fun p => p.rank = 0 then props else (RunProperty.fonts none).put props, some e)

/-- Gives a run a colour, if the text is one. -/
def setColor (color : String) : Change Run := fun r =>
  match readColor color with
  | .ok hex => (editProperties (RunProperty.color hex).put r, none)
  | .error e => (r, some e)

/-- The largest length of a font size. -/
def maxSize : Int := 18446744073709551615

/-- The length of a number of half points. -/
def sizeLength (halfPoints : Int) : Except Failure Int :=
  match Binary64.ofRatio (decide (halfPoints < 0)) halfPoints.natAbs 2 with
  | .infinite _ => .error .hugeQuotient
  | points =>
    match (points.mul (.ofNat emuPerPoint)).truncated? with
    | some emu => .ok emu
    | none => .error .infiniteLength

/-- The half points in a length that fits a font size. -/
def halfPointsOf (emu : Int) : Int :=
  ((((Binary64.ofInt? emu).getD .nan).divNat emuPerPoint).mul (.ofNat 2)).truncated?.getD 0

/-- Gives a run a font size in half points; a size that does not fit leaves the property empty. -/
def setSize (size : Int) : Change Run := fun r =>
  match sizeLength size with
  | .error e => (r, some e)
  | .ok emu =>
    if 0 ≤ emu && emu ≤ maxSize then
      (editProperties (RunProperty.size (some (halfPointsOf emu))).put r, none)
    else
      (r.editProperties fun props =>
        if props.any fun p => p.rank = 4 then props else (RunProperty.size none).put props,
        some (.lengthOutOfRange 0 maxSize emu))

/-- Adds a shading to a run; one that XML cannot hold leaves only the list of properties behind. -/
def addShade (fill : String) : Change Run := fun r =>
  match textFailure? fill with
  | none => (editProperties (RunProperty.shade fill).add r, none)
  | some e => (editProperties id r, some e)

end Run

end Folio.Word
