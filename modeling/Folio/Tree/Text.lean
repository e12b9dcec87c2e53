import Folio.Text.Blank
import Folio.Tree

/-!
# The plain text of inline content

What inline content says without its formatting, as it serves for the alternative text of an image,
and whether a link with that content has anything to click on.
-/

set_option autoImplicit false
set_option relaxedAutoImplicit false

namespace Folio

mutual

/-- The text of a piece of inline content. -/
def Inline.plainText : Inline → String
  | .text content => content
  | .code content => content
  | .lineBreak => " "
  | .emphasis _ children => plainTextOf children
  | .link _ _ children => plainTextOf children
  | .image _ _ alt => plainTextOf alt
  | .unknown => ""

/-- The text of a sequence of inline content. -/
def plainTextOf : List Inline → String
  | [] => ""
  | x :: xs => x.plainText ++ plainTextOf xs

end

mutual

/-- Whether a piece of inline content shows anything: an image, or text that is not blank. -/
def Inline.isVisible : Inline → Bool
  | .text content => !isBlankText content
  | .code content => !isBlankText content
  | .emphasis _ children => anyVisible children
  | .link _ _ children => anyVisible children
  | .image _ _ _ => true
  | .lineBreak => false
  | .unknown => false

/-- Whether a sequence of inline content shows anything. -/
def anyVisible : List Inline → Bool
  | [] => false
  | x :: xs => x.isVisible || anyVisible xs

end

@[simp] theorem plainTextOf_nil : plainTextOf [] = "" := rfl

@[simp] theorem plainTextOf_cons (x : Inline) (xs : List Inline) :
    plainTextOf (x :: xs) = x.plainText ++ plainTextOf xs := rfl

@[simp] theorem anyVisible_nil : anyVisible [] = false := rfl

@[simp] theorem anyVisible_cons (x : Inline) (xs : List Inline) :
    anyVisible (x :: xs) = (x.isVisible || anyVisible xs) := rfl

end Folio
