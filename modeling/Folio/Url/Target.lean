import Folio.Text.Blank
import Folio.Url.Split

/-!
# Targets of hyperlinks

A link target is brought to one spelling: blanks around it are dropped, and a backslash, plain or
percent-encoded in either letter case, becomes a slash. A target that cannot be split into the parts
of a URL is replaced by a blank page.
-/

set_option autoImplicit false
set_option relaxedAutoImplicit false

namespace Folio.Url

/-- Slashes for backslashes. -/
def slashed (cs : List Char) : List Char := cs.map fun c => if c = '\\' then '/' else c

/-- Slashes for percent-encoded backslashes. -/
def decodeBackslashes : List Char → List Char
  | '%' :: '5' :: c :: rest =>
    if c = 'c' || c = 'C' then '/' :: decodeBackslashes rest
    else '%' :: decodeBackslashes ('5' :: c :: rest)
  | c :: rest => c :: decodeBackslashes rest
  | [] => []

/-- The one spelling of a link target. -/
def normalized (url : String) : String :=
  String.ofList (decodeBackslashes (slashed (trimChars url.toList)))

/-- The target that stands in for one that cannot be split. -/
def placeholder : String := "about:blank"

/-- Whether a text can be split into the parts of a URL. -/
def isSplittable (url : String) : Bool := (split url.toList).isOk

/-- The target to register for a link. -/
def resolved (url : String) : String :=
  let target := normalized url
  if isSplittable target then target else placeholder

end Folio.Url
