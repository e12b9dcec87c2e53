import Folio.Text.Cut

/-!
# Paths as text

A path without regard to what exists: how many slashes it starts with, and its components. Empty
components and single points do not count; two points do, because only a file system can tell where
they lead. A name splits into a stem and a suffix at its last point, unless that point is the first
or the last character.
-/

set_option autoImplicit false
set_option relaxedAutoImplicit false

namespace Folio

/-- A path as text. -/
structure PurePath where
  slashes : Nat
  parts : List String
  deriving DecidableEq, Repr

namespace PurePath

/-- The number of slashes that count at the start of a path: exactly two keep their number, three or
more are one. -/
def leadingSlashes (cs : List Char) : Nat :=
  match (cs.takeWhile (· = '/')).length with
  | 0 => 0
  | 2 => 2
  | _ => 1

/-- The path that a text spells. -/
def ofString (s : String) : PurePath :=
  ⟨leadingSlashes s.toList,
    ((splitOnChar '/' s.toList).filter fun p => !p.isEmpty && p != ['.']).map String.ofList⟩

/-- The text of a path. -/
def toString (p : PurePath) : String :=
  if p.slashes = 0 && p.parts.isEmpty then "."
  else String.ofList (List.replicate p.slashes '/') ++ joined "/" p.parts

/-- The last component. -/
def name (p : PurePath) : String := p.parts.getLast?.getD ""

/-- The path that holds a path. -/
def parent (p : PurePath) : PurePath := ⟨p.slashes, p.parts.dropLast⟩

/-- A path inside another, unless it starts at the root. -/
def join (p q : PurePath) : PurePath :=
  if q.slashes = 0 then ⟨p.slashes, p.parts ++ q.parts⟩ else q

/-- The stem and the suffix of a name. -/
def splitName (name : List Char) : List Char × List Char :=
  let tail := name.reverse.takeWhile (· ≠ '.')
  let stemLength := name.length - tail.length - 1
  if tail.length < name.length && tail ≠ [] && stemLength ≠ 0 then
    (name.take stemLength, name.drop stemLength)
  else (name, [])

/-- The name without its suffix. -/
def stem (p : PurePath) : String := String.ofList (splitName p.name.toList).1

/-- The suffix of the name, with its point. -/
def suffix (p : PurePath) : String := String.ofList (splitName p.name.toList).2

/-- The path with its suffix replaced; none for a path without a name. -/
def withSuffix? (p : PurePath) (suffix : String) : Option PurePath :=
  if p.name = "" then none
  else some ⟨p.slashes, p.parts.dropLast ++ [p.stem ++ suffix]⟩

/-- Whether a path holds a NUL character, which no path of a file system does. -/
def holdsNul (p : PurePath) : Bool := p.parts.any (holdsChar · '\x00')

end PurePath

end Folio
