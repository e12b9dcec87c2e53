import Folio.Text.Cut
import Folio.Text.Digit

/-!
# Hosts in brackets

A host written in brackets is an IPv6 address, possibly with an IPv4 address as its last four bytes
and a zone behind a percent sign, or an address of a later version that starts with `v`.
-/

set_option autoImplicit false
set_option relaxedAutoImplicit false

namespace Folio.Url

/-- One of the four numbers of an IPv4 address: at most 255, without leading zeros. -/
def isOctet (cs : List Char) : Bool :=
  !cs.isEmpty && cs.all isAsciiDigit && cs.length ≤ 3 && (cs = ['0'] || cs.head? ≠ some '0') &&
    decimalNumber cs ≤ 255

/-- An IPv4 address in dotted notation. -/
def isIpv4 (cs : List Char) : Bool :=
  let octets := splitOnChar '.' cs
  octets.length = 4 && octets.all isOctet

/-- One of the groups of an IPv6 address: one to four hexadecimal digits. -/
def isHextet (cs : List Char) : Bool := !cs.isEmpty && cs.length ≤ 4 && cs.all isHexDigit

/-- The groups of an address with an IPv4 address at its end counted as two groups; none if that
end is not an IPv4 address. -/
def ipv6Groups? (cs : List Char) : Option (List (List Char)) :=
  let groups := splitOnChar ':' cs
  match groups.getLast? with
  | some last =>
    if last.contains '.' then
      if isIpv4 last then some (groups.dropLast ++ [['0'], ['0']]) else none
    else some groups
  | none => some groups

/-- Whether the groups on the two sides of an elision make an address of eight groups. An empty group
may stand only at the outer end of an elision that reaches that end. -/
def elidedGroupsOk (before after : List (List Char)) : Bool :=
  let before := if before = [[]] then [] else before
  let after := if after = [[]] then [] else after
  before.length + after.length ≤ 7 && before.all isHextet && after.all isHextet

/-- Whether a text is an IPv6 address without a zone. -/
def isIpv6Address (cs : List Char) : Bool :=
  if (splitOnChar ':' cs).length < 3 then false
  else
    match ipv6Groups? cs with
    | none => false
    | some groups =>
      if 9 < groups.length then false
      else
        let inner := groups.drop 1 |>.dropLast
        match inner.findIdx? List.isEmpty with
        | some i =>
          (inner.drop (i + 1)).all (!·.isEmpty) &&
            elidedGroupsOk (groups.take (i + 1)) (groups.drop (i + 2))
        | none => groups.length = 8 && groups.all isHextet

/-- Whether a text is an IPv6 address with or without a zone. -/
def isIpv6 (cs : List Char) : Bool :=
  if cs.contains '/' then false
  else
    match cutAt (· = '%') cs with
    | (address, []) => isIpv6Address address
    | (address, _ :: zone) => !zone.isEmpty && !zone.contains '%' && isIpv6Address address

/-- Whether a text is an address of a later version: `v`, hexadecimal digits, a point and more. -/
def isLaterVersion : List Char → Bool
  | 'v' :: cs =>
    match cutAt (· = '.') cs with
    | (version, _ :: address) =>
      !version.isEmpty && version.all isHexDigit && !address.isEmpty && !address.contains '\n'
    | (_, []) => false
  | _ => false

/-- Whether a text may stand in brackets as a host. -/
def isBracketedHost (cs : List Char) : Bool :=
  if cs.head? = some 'v' then isLaterVersion cs else isIpv6 cs

end Folio.Url
