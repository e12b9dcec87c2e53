import Folio.Url.Loose
import Folio.Url.Percent
import Folio.Url.Punycode

/-!
# Destinations of links

The URL that a link of a text leads to: its host in ASCII, and everything that cannot stand in a URL
percent-encoded. URLs that would run a script or open a file are refused. A link that is written as
a bare URL shows it decoded.
-/

set_option autoImplicit false
set_option relaxedAutoImplicit false

namespace Folio.Markdown

open Url

/-- The URL that a written destination stands for. -/
def destinationUrl (written : List Char) : List Char :=
  let u := Loose.ofText written
  percentEncoded (if u.isRecodable then { u with host := asciiHost u.host } else u).text

/-- The text that shows a URL to readers. -/
def shownUrl (written : List Char) : List Char :=
  let u := Loose.ofText written
  percentDecoded (if u.isRecodable then { u with host := (shownHost? u.host).getD u.host } else u).text

/-- Protocols that no link may have. -/
def refusedProtocols : List String := ["vbscript:", "javascript:", "file:", "data:"]

/-- Images that may be given by their data. -/
def allowedData : List String :=
  ["data:image/gif;", "data:image/png;", "data:image/jpeg;", "data:image/webp;"]

/-- Whether a link may lead to a URL. -/
def isAllowedUrl (url : List Char) : Bool :=
  let cs := (trimChars url).map Char.toLower
  if refusedProtocols.any fun p => p.toList.isPrefixOf cs then
    allowedData.any fun d => d.toList.isPrefixOf cs
  else true

end Folio.Markdown
