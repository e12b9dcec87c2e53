import Folio.Path.Pure

/-!
# Home directories

A path whose first component is a tilde with the name of a user starts at the home directory of that
user, and at the user's own without a name.
-/

set_option autoImplicit false
set_option relaxedAutoImplicit false

namespace Folio

/-- The home directories of users by their names; the empty name is the user who asks. -/
abbrev Homes := String → Option String

namespace PurePath

/-- The path of a home directory, unless it starts with a tilde itself. -/
def ofHome? (home : String) : Option PurePath :=
  let cs := (home.toList.reverse.dropWhile (· = '/')).reverse
  if cs.head? = some '~' then none else some (if cs.isEmpty then ⟨1, []⟩ else ofString home)

/-- A path with the home directory at its start put in; none if it is not known. -/
def expanded? (homes : Homes) (p : PurePath) : Option PurePath :=
  match p.slashes, p.parts with
  | 0, first :: rest =>
    match first.toList with
    | '~' :: user =>
      ((homes (String.ofList user)).bind ofHome?).map fun home => ⟨home.slashes, home.parts ++ rest⟩
    | _ => some p
  | _, _ => some p

end PurePath

end Folio
