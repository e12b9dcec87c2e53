import Folio.Command.Run

/-!
# What a command touches

A run works on a tree of files that is known before it starts, and leaves a tree. The locations that
it may look at are those on the way of a few paths: of the input, of the settings, of the document,
and, once the input can be read, of the images that it shows. What it changes is the difference
between the two trees, directories before what they hold.
-/

set_option autoImplicit false
set_option relaxedAutoImplicit false

namespace Folio

/-! ### Locations on the way of a path -/

/-- The locations through which components lead, both ends included. -/
def FileTree.through (location : Location) : List String → List Location
  | [] => [location]
  | component :: rest => location :: through (step location component) rest

/-- The locations on the way of a path. -/
def FileTree.visited (tree : FileTree) (path : PurePath) : List Location :=
  through (tree.start path) path.parts

/-- The entries that one tree has and another has not, in the order in which they were made. -/
def FileTree.entriesSince (after before : FileTree) : List (Location × FileEntry) :=
  after.nodes.reverse.filterMap fun e =>
    match after.entryAt? e.1 with
    | some entry => if before.entryAt? e.1 = some entry then none else some (e.1, entry)
    | none => none

/-! ### Sources of images -/

mutual

/-- The sources of the images that a piece of inline content shows. -/
def Inline.imageSources : Inline → List String
  | .image url _ _ => [url]
  | .emphasis _ children => imageSourcesOf children
  | .link _ _ children => imageSourcesOf children
  | _ => []

/-- The sources of the images that inline content shows. -/
def imageSourcesOf : List Inline → List String
  | [] => []
  | x :: xs => x.imageSources ++ imageSourcesOf xs

end

/-- The sources of the images that a row of a table shows. -/
def TableRow.imageSources (row : TableRow) : List String := row.cells.flatMap imageSourcesOf

mutual

/-- The sources of the images that a block shows. -/
def Block.imageSources : Block → List String
  | .heading _ content => imageSourcesOf content
  | .paragraph content => imageSourcesOf content
  | .list _ items => itemImageSources items
  | .quote blocks => blockImageSources blocks
  | .table rows => rows.flatMap TableRow.imageSources
  | _ => []

/-- The sources of the images that a sequence of blocks shows. -/
def blockImageSources : List Block → List String
  | [] => []
  | b :: bs => b.imageSources ++ blockImageSources bs

/-- The sources of the images that the items of a list show. -/
def itemImageSources : List (List Block) → List String
  | [] => []
  | item :: items => blockImageSources item ++ itemImageSources items

end

/-! ### The paths of a run -/

/-- The paths that a run follows whatever the files hold. -/
def Arguments.paths (homes : Homes) (arguments : Arguments) : List PurePath :=
  let input := (PurePath.ofString arguments.input).expanded? homes
  let config := arguments.config.bind fun path => (PurePath.ofString path).expanded? homes
  let output := (arguments.output.map PurePath.ofString).toList
  input.toList ++ config.toList ++ output ++
    match input with
    | none => []
    | some input =>
      output.map (·.join (.ofString (input.stem ++ documentSuffix))) ++
        (input.withSuffix? documentSuffix).toList

/-- The paths of the files that the input of a run may take images from. -/
def System.imagePaths (system : System) (arguments : Arguments) : List PurePath :=
  match (PurePath.ofString arguments.input).expanded? system.homes with
  | none => []
  | some input =>
    match readMarkdown system.files input with
    | .error _ => []
    | .ok text =>
      match Markdown.parse text with
      | .error _ => []
      | .ok blocks =>
        (blockImageSources blocks).map fun source =>
          FileTree.pathOf (system.files.settled (input.parent.join (.ofString source)))

end Folio
