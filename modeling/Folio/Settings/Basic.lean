import Folio.Number.Binary64

/-!
# Settings

How a document is to look and how images are fetched, with the defaults.
-/

set_option autoImplicit false
set_option relaxedAutoImplicit false

namespace Folio

/-- The settings of a conversion. Lengths are in inches, the time limit in seconds. -/
structure Settings where
  fetchTimeout : Binary64 := .ofNat 10
  userAgent : String := "MarkDocx/0.1"
  codeFont : String := "Consolas"
  linkColor : String := "0563C1"
  codeColor : String := "C7254E"
  codeShade : String := "F2F2F2"
  headerShade : String := "D9D9D9"
  ruleColor : String := "A6A6A6"
  captionColor : String := "808080"
  imageWidth : Binary64 := .ofRatio false 317 100
  imageHeight : Binary64 := .ofRatio false 211 100
  deriving DecidableEq, Repr

end Folio
