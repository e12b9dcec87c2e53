import Folio.Path.Pure
import Folio.Text.Blank
import Folio.Text.Case
import Folio.Url.Split

/-!
# Kinds of images

The kind of an image is told by the suffix of its URL's path, or, if the suffix names no kind, by
the media type that came with it; JPEG otherwise.
-/

set_option autoImplicit false
set_option relaxedAutoImplicit false

namespace Folio

/-- A kind of image that a document can hold. -/
inductive ImageKind
  | png
  | jpeg
  | gif
  | bmp
  | tiff
  deriving DecidableEq, Repr

namespace ImageKind

/-- The media type of a kind. -/
def mediaType : ImageKind → String
  | png => "image/png"
  | jpeg => "image/jpeg"
  | gif => "image/gif"
  | bmp => "image/bmp"
  | tiff => "image/tiff"

/-- The suffix of the parts that hold images of a kind. -/
def fileSuffix : ImageKind → String
  | png => "png"
  | jpeg => "jpeg"
  | gif => "gif"
  | bmp => "bmp"
  | tiff => "tiff"

/-- All kinds. -/
def all : List ImageKind := [png, jpeg, gif, bmp, tiff]

/-- The kind that a suffix in lower case names. -/
def ofSuffix? (suffix : String) : Option ImageKind :=
  match suffix with
  | ".png" => some png
  | ".jpg" => some jpeg
  | ".jpeg" => some jpeg
  | ".gif" => some gif
  | ".bmp" => some bmp
  | ".tif" => some tiff
  | ".tiff" => some tiff
  | _ => none

/-- The kind that a media type names, whatever parameters follow its first semicolon. -/
def ofMediaType? (mediaType : String) : Option ImageKind :=
  let essence := trimChars (mediaType.toList.takeWhile (· ≠ ';'))
  all.find? fun kind => kind.mediaType = lowered (String.ofList essence)

end ImageKind

/-- The path of a URL; a URL that cannot be split is a path as a whole. -/
def urlPath (url : String) : PurePath :=
  match Url.split url.toList with
  | .ok parts => .ofString (String.ofList parts.path)
  | .error _ => .ofString url

/-- The kind of an image, by its URL and the media type that came with it. -/
def imageKind (url : String) (mediaType : Option String) : ImageKind :=
  ((ImageKind.ofSuffix? (lowered (urlPath url).suffix)).or
    (mediaType.bind ImageKind.ofMediaType?)).getD .jpeg

end Folio
