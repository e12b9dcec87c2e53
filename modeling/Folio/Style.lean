import Folio.Settings.Basic
import Folio.Word.Run

/-!
# Styles of runs

The style of a run is gathered from the places it stands in: a heading, a header row, emphasis, a
link, a code span. Merging an inner style into an outer one accumulates the switches and lets the
inner colour, shading and size win. A colour or a shading that is empty and a size of zero count as
none given.
-/

set_option autoImplicit false
set_option relaxedAutoImplicit false

namespace Folio

/-- The style of a run; the size is in half points. -/
structure RunStyle where
  bold : Bool := false
  italic : Bool := false
  underline : Bool := false
  monospace : Bool := false
  color : Option String := none
  shade : Option String := none
  size : Option Int := none
  deriving DecidableEq, Repr

namespace RunStyle

/-- The inner text if it is given and not empty, the outer one otherwise. -/
def innerText (outer inner : Option String) : Option String :=
  match inner with
  | some s => if s.isEmpty then outer else some s
  | none => outer

/-- The inner size if it is given and not zero, the outer one otherwise. -/
def innerSize (outer inner : Option Int) : Option Int :=
  match inner with
  | some n => if n = 0 then outer else some n
  | none => outer

/-- An inner style within an outer one. -/
def merge (outer inner : RunStyle) : RunStyle where
  bold := outer.bold || inner.bold
  italic := outer.italic || inner.italic
  underline := outer.underline || inner.underline
  monospace := outer.monospace || inner.monospace
  color := innerText outer.color inner.color
  shade := innerText outer.shade inner.shade
  size := innerSize outer.size inner.size

/-- The style that nothing adds to. -/
def plain : RunStyle := {}

/-- The style of emphasis: bold from two delimiters on, italic with one or three. -/
def ofEmphasis (delimiters : Int) : RunStyle :=
  { bold := decide (2 ≤ delimiters), italic := delimiters = 1 || delimiters = 3 }

/-- The size of a heading in half points. -/
def headingSize (level : Int) : Int :=
  if level = 1 then 32
  else if level = 2 then 28
  else if level = 3 then 24
  else if level = 4 then 22
  else if level = 5 then 20
  else 18

/-- The style of a heading. -/
def ofHeading (level : Int) : RunStyle := { bold := true, size := some (headingSize level) }

/-- The style of a code span. -/
def ofCode (s : Settings) : RunStyle :=
  { monospace := true, color := some s.codeColor, shade := some s.codeShade }

/-- The style of a line of a code block. -/
def ofCodeLine : RunStyle := { monospace := true }

/-- The style of the label of a link. -/
def ofLink (s : Settings) : RunStyle := { underline := true, color := some s.linkColor }

/-- The style of the caption that stands for a missing image. -/
def ofCaption (s : Settings) : RunStyle := { italic := true, color := some s.captionColor }

/-- The style of a header row. -/
def ofHeader : RunStyle := { bold := true }

/-- Applies a style to a run: bold and italic are switched on or off, everything else is set only if
the style gives it. -/
def apply (style : RunStyle) (codeFont : String) : Change Word.Run :=
  Change.all [
    .always (Word.Run.editProperties (Word.RunProperty.bold style.bold).put),
    .always (Word.Run.editProperties (Word.RunProperty.italic style.italic).put),
    .when style.underline (.always (Word.Run.editProperties Word.RunProperty.underline.put)),
    .when style.monospace (Word.Run.setFont codeFont),
    ifGiven style.color Word.Run.setColor,
    sizeChange style.size,
    ifGiven style.shade Word.Run.addShade]
where
  /-- A change by a text, if one is given that is not empty. -/
  ifGiven (text : Option String) (change : String → Change Word.Run) : Change Word.Run :=
    match text with
    | some s => .when (!s.isEmpty) (change s)
    | none => fun r => (r, none)
  /-- The change by a size, if one is given that is not zero. -/
  sizeChange (size : Option Int) : Change Word.Run :=
    match size with
    | some n => .when (n ≠ 0) (Word.Run.setSize n)
    | none => fun r => (r, none)

@[simp] theorem innerText_none (outer : Option String) : innerText outer none = outer := rfl

@[simp] theorem innerSize_none (outer : Option Int) : innerSize outer none = outer := rfl

/-- A style that gives nothing changes no other. -/
@[simp] theorem merge_plain (s : RunStyle) : s.merge plain = s := by
  cases s
  simp [merge, plain]

end RunStyle

end Folio
