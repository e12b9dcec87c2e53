import Folio.Path.Tree

/-!
# Where paths really lead

A path is resolved by reading it component by component, without regard to whether anything stands
at the location that it comes to: two points go up, and a link is replaced by what it leads to. This
is what decides whether a path stays inside a directory. Where links lead in a circle, the link that
is met again stays as it is together with all that comes behind it; such a path is then refused if
the file system refuses it for its links.
-/

set_option autoImplicit false
set_option relaxedAutoImplicit false

namespace Folio

/-- The path one step up; from the start of a path it leads further up. -/
def PurePath.up (p : PurePath) : PurePath :=
  if p.parts.getLast? = some ".." || (p.slashes = 0 && p.parts.isEmpty) then
    ⟨p.slashes, p.parts ++ [".."]⟩
  else p.parent

namespace FileTree

/-- The location that a path without links names by its text. -/
def placeOfPath (tree : FileTree) (path : PurePath) : Location :=
  path.parts.foldl step (tree.start path)

/-- The path to which components lead from a path without links, and whether it was found without
meeting a link again. `enter` tells where the link at a path leads that stands in a directory. -/
def settleWith (tree : FileTree) (enter : PurePath → PurePath → PurePath → PurePath × Bool)
    (path : PurePath) : List String → PurePath × Bool
  | [] => (path, true)
  | component :: rest =>
    if component = ".." then tree.settleWith enter path.up rest
    else
      let next : PurePath := ⟨path.slashes, path.parts ++ [component]⟩
      match tree.nodeAt? (tree.placeOfPath next) with
      | some (.link target) =>
        match enter path next target with
        | (reached, true) => tree.settleWith enter reached rest
        | (reached, false) => (⟨reached.slashes, reached.parts ++ rest⟩, false)
      | _ => tree.settleWith enter next rest

/-- The path to which components lead from a path without links while some links are being followed.
The number bounds how many more there can be. -/
def settle (tree : FileTree) :
    (fuel : Nat) → (entered : List PurePath) → PurePath → List String → PurePath × Bool
  | 0, _, path, components => (⟨path.slashes, path.parts ++ components⟩, false)
  | fuel + 1, entered, path, components =>
    tree.settleWith (fun directory link target =>
      if link ∈ entered then (link, false)
      else
        tree.settle fuel (link :: entered) (if target.slashes = 0 then directory else ⟨1, []⟩)
          target.parts)
      path components

/-- The location that a path comes to. A link is met by a path from the root, or by one that goes up
from the working directory first, and no such path twice. -/
def settled (tree : FileTree) (path : PurePath) : Location :=
  let fuel := (tree.workingDirectory.length + 2) * tree.nodes.length + 1
  tree.placeOfPath (tree.settle fuel [] ⟨min 1 path.slashes, []⟩ path.parts).1

/-- The location of a path, or the location at which there are too many links. -/
def resolve (tree : FileTree) (path : PurePath) : Except Location Location :=
  match tree.lookUp (pathOf (tree.settled path)) with
  | .error .tooManyLinks => .error (tree.settled path)
  | _ => .ok (tree.settled path)

end FileTree
end Folio
