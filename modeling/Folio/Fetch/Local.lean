import Folio.Failure
import Folio.Fetch.Result
import Folio.Path.Resolve

/-!
# Images from files

An image named by a path is read below the asset root, and nowhere else: the path is resolved, and
only if the location that it really leads to lies inside the root is the file read.
-/

set_option autoImplicit false
set_option relaxedAutoImplicit false

namespace Folio

/-- Loads an image from the file at a location inside the asset root. -/
def readImage (tree : FileTree) (location : Location) : Fetched :=
  let path := FileTree.pathOf location
  match tree.read path with
  | .error fault => .missing (.unreadable path.toString fault)
  | .ok content =>
    if content.isEmpty then .missing (.emptyFile path.toString) else .image content none

/-- The places of an asset root and of a source below it. A NUL character in either of them stops
the work, since no path holds one, and so do links that lead in a circle. -/
def imagePlaces (tree : FileTree) (root : PurePath) (source : String) :
    Except Failure (Location × Location) :=
  if root.holdsNul then .error .nulInPath
  else
    match tree.resolve root with
    | .error place => .error (.linkCircle (FileTree.pathOf place).toString)
    | .ok base =>
      if source.toList.contains (Char.ofNat 0) then .error .nulInPath
      else
        match tree.resolve ((FileTree.pathOf base).join (.ofString source)) with
        | .error place => .error (.linkCircle (FileTree.pathOf place).toString)
        | .ok location => .ok (base, location)

/-- Loads an image named by a path relative to the asset root. -/
def readLocalImage (tree : FileTree) (root : Option PurePath) (source : String) :
    Except Failure Fetched :=
  match root with
  | none => .ok (.missing (.noAssetRoot source))
  | some root =>
    match imagePlaces tree root source with
    | .error failure => .error failure
    | .ok (base, location) =>
      if base.isPrefixOf location then .ok (readImage tree location)
      else .ok (.missing (.escapes source (FileTree.pathOf base).toString))

end Folio
