import Folio.Failure
import Folio.Text.Blank

/-!
# Text in XML

Which texts an XML document can hold, and how a text is written in the content of an element and in
an attribute.
-/

set_option autoImplicit false
set_option relaxedAutoImplicit false

namespace Folio.Word

/-- Whether XML can hold a character: control characters other than tab, line feed and carriage
return, and the two non-characters U+FFFE and U+FFFF, cannot stand in a document. -/
def isCompatibleChar (c : Char) : Bool :=
  (0x20 ≤ c.toNat || c = '\t' || c = '\n' || c = '\r') && c.toNat ≠ 0xfffe && c.toNat ≠ 0xffff

/-- Whether XML can hold a list of characters. -/
def isCompatible (cs : List Char) : Bool := cs.all isCompatibleChar

/-- Whether XML can hold a text. -/
def isCompatibleText (s : String) : Bool := isCompatible s.toList

/-- The failure that a text causes where it has to be stored. -/
def textFailure? (s : String) : Option Failure :=
  if isCompatibleText s then none else some .incompatibleText

/-- One character of the content of an element. -/
def escapedChar (c : Char) : List Char :=
  if c = '&' then "&amp;".toList
  else if c = '<' then "&lt;".toList
  else if c = '>' then "&gt;".toList
  else [c]

/-- One character of the value of an attribute. -/
def escapedAttributeChar (c : Char) : List Char :=
  if c = '"' then "&quot;".toList else escapedChar c

/-- A text as the content of an element. -/
def escaped (s : String) : String := String.ofList (s.toList.flatMap escapedChar)

/-- A text as the value of an attribute. -/
def escapedAttribute (s : String) : String := String.ofList (s.toList.flatMap escapedAttributeChar)

end Folio.Word
