import Folio.Text.Digit
import Folio.Url.Host

/-!
# The parts of a URL

A URL is split into scheme, authority, path, query and fragment. Control characters and spaces in
front and tabs and line breaks anywhere do not count. The split fails on an authority whose brackets
do not match or hold no address, and on one that holds a character with a compatibility form that
contains a delimiter, such as the account-of sign.
-/

set_option autoImplicit false
set_option relaxedAutoImplicit false

namespace Folio.Url

/-- The parts of a URL. -/
structure Parts where
  scheme : List Char
  authority : List Char
  path : List Char
  query : List Char
  fragment : List Char
  deriving DecidableEq, Repr

/-- Why a URL cannot be split. -/
inductive SplitFault
  | unbalancedBrackets
  | badBracketedHost
  | hiddenDelimiter
  deriving DecidableEq, Repr

/-- Characters outside ASCII whose compatibility form contains one of `/ ? # @ :`. -/
def hiddenDelimiterCodes : List Nat :=
  [0x2047, 0x2048, 0x2049, 0x2100, 0x2101, 0x2105, 0x2106, 0x2a74, 0xfe13, 0xfe16, 0xfe55, 0xfe56,
   0xfe5f, 0xfe6b, 0xff03, 0xff0f, 0xff1a, 0xff1f, 0xff20]

/-- Whether a character has a compatibility form that contains a delimiter. -/
def hidesDelimiter (c : Char) : Bool := hiddenDelimiterCodes.contains c.toNat

/-- Whether a character may stand in a scheme. -/
def isSchemeChar (c : Char) : Bool :=
  isAsciiLetter c || isAsciiDigit c || c = '+' || c = '-' || c = '.'

/-- The characters of a URL that count. -/
def significant (cs : List Char) : List Char :=
  (cs.dropWhile fun c => c.toNat ≤ 0x20).filter fun c => c ≠ '\t' && c ≠ '\r' && c ≠ '\n'

/-- The scheme in lower case and what follows its colon; no scheme if the text in front of the first
colon is not one. -/
def splitScheme (cs : List Char) : List Char × List Char :=
  match cutAt (· = ':') cs with
  | (scheme, _ :: rest) =>
    if (scheme.head?.map isAsciiLetter).getD false && scheme.all isSchemeChar then
      (scheme.map Char.toLower, rest)
    else ([], cs)
  | (_, []) => ([], cs)

/-- The authority after two slashes, and what follows it. -/
def splitAuthority : List Char → List Char × List Char
  | '/' :: '/' :: rest => cutAt (fun c => c = '/' || c = '?' || c = '#') rest
  | cs => ([], cs)

/-- What follows the account in an authority: everything behind the last `@`. -/
def withoutAccount (authority : List Char) : List Char :=
  (authority.reverse.takeWhile (· ≠ '@')).reverse

/-- The host of an authority in which brackets occur: the text between the first opening bracket and
the closing bracket after it, with nothing in front and at most a port behind; what stands in front
of the first colon if the brackets belong to the account. -/
def bracketedHost? (authority : List Char) : Option (List Char) :=
  match cutAt (· = '[') (withoutAccount authority) with
  | ([], _ :: rest) =>
    let (host, behind) := cutAt (· = ']') rest
    if (behind.drop 1).isEmpty || (behind.drop 1).head? = some ':' then some host else none
  | (_ :: _, _ :: _) => none
  | (hostAndPort, []) => some (cutAt (· = ':') hostAndPort).1

/-- Why an authority is refused, if it is. -/
def authorityFault? (authority : List Char) : Option SplitFault :=
  let opens := authority.contains '['
  let closes := authority.contains ']'
  if opens != closes then some .unbalancedBrackets
  else if opens && !((bracketedHost? authority).any isBracketedHost) then some .badBracketedHost
  else if authority.any hidesDelimiter then some .hiddenDelimiter
  else none

/-- The parts of a URL. -/
def split (url : List Char) : Except SplitFault Parts :=
  let (scheme, rest) := splitScheme (significant url)
  let (authority, rest) := splitAuthority rest
  match authorityFault? authority with
  | some fault => .error fault
  | none =>
    let (rest, fragment) := cutAt (· = '#') rest
    let (path, query) := cutAt (· = '?') rest
    .ok ⟨scheme, authority, path, query.drop 1, fragment.drop 1⟩

/-- Whether a URL is one that is fetched over the network. -/
def isRemote (url : String) : Bool :=
  match split url.toList with
  | .ok parts => parts.scheme = "http".toList || parts.scheme = "https".toList
  | .error _ => false

end Folio.Url
