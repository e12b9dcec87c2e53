import Folio.Failure
import Folio.Fetch.Result
import Folio.Url.Split

/-!
# Images from the network

The network is known by its answers: what is replied to a request for a URL, given the requests made
before it. An image is the body of a reply with a status of success. Timeouts, failures of the
transport and other statuses are results like any other; a client that fails in another way stops
the work.
-/

set_option autoImplicit false
set_option relaxedAutoImplicit false

namespace Folio

/-- A reply to a request. -/
inductive Reply
  | response (status : Int) (body : List UInt8) (contentType : Option String)
  | timeout
  | refused (message : String)
  | broken (message : String)
  deriving DecidableEq, Repr

/-- The network: the reply to a request for a URL after earlier requests. -/
abbrev Web := List String → String → Reply

/-- Whether a status reports success. -/
def isSuccess (status : Int) : Bool := decide (200 ≤ status) && decide (status ≤ 299)

/-- What a reply to a request for a URL gives. -/
def Reply.fetched (url : String) : Reply → Except Failure Fetched
  | timeout => .ok (.missing (.timedOut url))
  | refused message => .ok (.missing (.failed url message))
  | broken message => .error (.client message)
  | response status body contentType =>
    if !isSuccess status then .ok (.missing (.status status url))
    else if body.isEmpty then .ok (.missing (.emptyBody url))
    else .ok (.image body contentType)

/-- Fetches a URL after earlier requests: the requests made after that, and the result. A URL with
another scheme is not requested. -/
def fetchImage (web : Web) (requests : List String) (url : String) :
    List String × Except Failure Fetched :=
  if Url.isRemote url then (requests ++ [url], (web requests url).fetched url)
  else (requests, .ok (.missing (.unsupportedScheme url)))

end Folio
