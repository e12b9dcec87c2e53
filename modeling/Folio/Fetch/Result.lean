import Folio.Path.Tree

/-!
# Results of loading an image

Loading an image gives its content, or a reason why there is none.
-/

set_option autoImplicit false
set_option relaxedAutoImplicit false

namespace Folio

/-- Why there is no image. -/
inductive FetchFault
  | unsupportedScheme (url : String)
  | status (code : Int) (url : String)
  | timedOut (url : String)
  | failed (url message : String)
  | emptyBody (url : String)
  | noAssetRoot (source : String)
  | escapes (source root : String)
  | unreadable (path : String) (fault : FileFault)
  | emptyFile (path : String)
  deriving DecidableEq, Repr

/-- The text that reports why there is no image. -/
def FetchFault.message : FetchFault → String
  | unsupportedScheme url => "Unsupported URL scheme for " ++ quoted url
  | status code url => "HTTP " ++ toString code ++ " from " ++ url
  | timedOut url => "Timed out fetching " ++ url
  | failed url message => "Failed to fetch " ++ url ++ ": " ++ message
  | emptyBody url => "Empty response body from " ++ url
  | noAssetRoot source => "No asset root to resolve " ++ quoted source
  | escapes source root => "Image path " ++ quoted source ++ " escapes " ++ root
  | unreadable path fault => "Cannot read image " ++ path ++ ": " ++ fault.message path
  | emptyFile path => "Image file " ++ path ++ " is empty"

/-- The result of loading an image. -/
inductive Fetched
  | image (content : List UInt8) (mediaType : Option String)
  | missing (why : FetchFault)
  deriving DecidableEq, Repr

end Folio
