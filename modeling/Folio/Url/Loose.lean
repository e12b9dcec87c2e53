import Folio.Text.Blank
import Folio.Text.Case
import Folio.Text.Cut
import Folio.Text.Digit

/-!
# Reading URLs loosely

A text is taken apart into protocol, account, host, port and rest in a way that never fails, as is
needed to write the host of a link that somebody typed in another form. What cannot belong to a host
is left in the rest, and `Loose.text` writes the parts one after the other.
-/

set_option autoImplicit false
set_option relaxedAutoImplicit false

namespace Folio.Url

/-- The parts of a text that is read as a URL. The protocol keeps its colon. -/
structure Loose where
  protocol : List Char := []
  slashes : Bool := false
  account : List Char := []
  host : List Char := []
  port : List Char := []
  rest : List Char := []
  deriving DecidableEq, Repr

/-- Whether a character may stand in a protocol. -/
def isProtocolChar (c : Char) : Bool :=
  isAsciiLetter (foldedChar c) || isAsciiDigit c || c = '.' || c = '+' || c = '-'

/-- The protocol with its colon, and what follows it. -/
def looseProtocol (cs : List Char) : List Char × List Char :=
  let word := cs.takeWhile isProtocolChar
  match cs.dropWhile isProtocolChar with
  | ':' :: rest => if word.isEmpty then ([], cs) else (word ++ [':'], rest)
  | _ => ([], cs)

/-- Whether a protocol is one that is followed by a host only after two slashes. -/
def needsSlashes (protocol : List Char) : Bool :=
  ["http:", "https:", "ftp:", "gopher:", "file:"].any fun p => p.toList = protocol

/-- Whether a protocol never has a host. -/
def hasNoHost (protocol : List Char) : Bool := protocol = "javascript:".toList

/-- Whether a character ends the part of a URL in which an account can stand. -/
def endsAccount (c : Char) : Bool := c = '/' || c = '?' || c = '#'

/-- Whether a character cannot stand in a host. -/
def endsHost (c : Char) : Bool :=
  "%/?;#'\x7b\x7d|\\^`<>\" \r\n\t".toList.contains c

/-- The account in front of the last `@` that may end one, and what follows that. -/
def looseAccount (cs : List Char) : List Char × List Char :=
  let reach := cs.takeWhile (!endsAccount ·)
  if reach.contains '@' then
    let behind := (reach.reverse.takeWhile (· ≠ '@')).length
    let length := reach.length - behind
    (cs.take (length - 1), cs.drop length)
  else ([], cs)

/-- The text of host and port, without a colon at its end, and what follows it. -/
def looseHostText (cs : List Char) : List Char × List Char :=
  let reach := cs.takeWhile (!endsHost ·)
  if reach.getLast? = some ':' then (reach.dropLast, cs.drop (reach.length - 1))
  else (reach, cs.drop reach.length)

/-- Host and port: the port is made of the digits behind a colon at the end. -/
def looseHostPort (cs : List Char) : List Char × List Char :=
  let digits := (cs.reverse.takeWhile isAsciiDigit).reverse
  match cs.reverse.dropWhile isAsciiDigit with
  | ':' :: front => (front.reverse, digits)
  | _ => (cs, [])

/-- Whether a character may stand in a label of a host name. -/
def isLabelChar (c : Char) : Bool :=
  isAsciiLetter c || isAsciiDigit c || c = '+' || c = '_' || c = '-'

/-- Whether a label may stand in a host name. Characters outside ASCII may. -/
def isLabel (label : List Char) : Bool :=
  label.length ≤ 63 && label.all fun c => isLabelChar c || 127 < c.toNat

/-- The labels of a host name up to the first that cannot stand in one, of which the characters that
may come first are kept, and the labels that are left over. -/
def looseLabels : List (List Char) → List (List Char) × List (List Char)
  | [] => ([], [])
  | label :: labels =>
    if isLabel label then
      let (kept, left) := looseLabels labels
      (label :: kept, left)
    else
      let start := (label.takeWhile isLabelChar).take 63
      ([start], label.drop start.length :: labels)

/-- Whether a host is an address in brackets. -/
def isInBrackets (host : List Char) : Bool :=
  host.head? = some '[' && host.getLast? = some ']'

/-- Reads host, port and rest. -/
def Loose.withHost (u : Loose) (cs : List Char) : Loose :=
  let (account, cs) := looseAccount cs
  let (hostText, rest) := looseHostText cs
  let (host, port) := looseHostPort hostText
  let u := { u with account, port }
  if isInBrackets host then
    let inner := if 255 < host.length then [] else (host.drop 1).dropLast
    { u with host := inner, rest }
  else
    let (kept, left) := looseLabels (splitOnChar '.' host)
    let host := joinWith '.' kept
    { u with host := if 255 < host.length then [] else host, rest := joinWith '.' left ++ rest }

/-- The parts of a text that is read as a URL. -/
def Loose.ofText (text : List Char) : Loose :=
  let (protocol, cs) := looseProtocol (trimChars text)
  let slashes := ['/', '/'].isPrefixOf cs
  if hasNoHost protocol then { protocol, rest := cs }
  else if slashes then ({ protocol, slashes } : Loose).withHost (cs.drop 2)
  else if protocol ≠ [] && !needsSlashes protocol then ({ protocol } : Loose).withHost cs
  else { protocol, rest := cs }

/-- The text of a URL. -/
def Loose.text (u : Loose) : List Char :=
  u.protocol ++ (if u.slashes then ['/', '/'] else []) ++
    (if u.account.isEmpty then [] else u.account ++ ['@']) ++
    (if u.host.contains ':' then '[' :: u.host ++ [']'] else u.host) ++
    (if u.port.isEmpty then [] else ':' :: u.port) ++ u.rest

/-- Whether the host of a URL may be written in another form. -/
def Loose.isRecodable (u : Loose) : Bool :=
  !u.host.isEmpty &&
    (u.protocol.isEmpty || ["http:", "https:", "mailto:"].any fun p => p.toList = u.protocol)

end Folio.Url
