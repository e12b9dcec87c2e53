import Folio.Path.Pure
import Folio.Text.Quoted

/-!
# Files

A tree of files, directories and symbolic links, seen from a working directory. Files are numbered,
and a file can have several names (hard links). A path is followed component by component:
everything but the last component must be a directory, two points go up, no component may be longer
than a file system allows, and a link leads on along the path that it holds, up to a number of links
on the way of a path. Everybody may read and change everything.
-/

set_option autoImplicit false
set_option relaxedAutoImplicit false

namespace Folio

/-- Why the file system refuses an operation. -/
inductive FileFault
  | notFound
  | exists
  | notDirectory
  | isDirectory
  | nameTooLong
  | tooManyLinks
  deriving DecidableEq, Repr

namespace FileFault

/-- The number and the description of a refusal. -/
def description : FileFault → Nat × String
  | notFound => (2, "No such file or directory")
  | «exists» => (17, "File exists")
  | notDirectory => (20, "Not a directory")
  | isDirectory => (21, "Is a directory")
  | nameTooLong => (36, "File name too long")
  | tooManyLinks => (40, "Too many levels of symbolic links")

/-- The text that reports the refusal of an operation on a path. -/
def message (fault : FileFault) (path : String) : String :=
  "[Errno " ++ toString fault.description.1 ++ "] " ++ fault.description.2 ++ ": " ++ quoted path

end FileFault

/-- What a path can lead to. -/
inductive FileEntry
  | file (content : List UInt8)
  | directory
  deriving DecidableEq, Repr

/-- The components of a path from the root of the file system, none of which is empty or points. -/
abbrev Location := List String

/-- What stands at a location: a file by its number, a directory, or a symbolic link to a path. -/
inductive FileNode
  | file (number : Nat)
  | directory
  | link (target : PurePath)
  deriving DecidableEq, Repr

/-- What stands at which location, what the files hold by their numbers, and the working directory.
The working directory and the directories above it exist without being listed, and a file that is not
listed is empty. -/
structure FileTree where
  workingDirectory : Location
  nodes : List (Location × FileNode) := []
  contents : List (Nat × List UInt8) := []
  deriving DecidableEq, Repr

/-- How far components lead without following a link: to a location, or to a link, by its location,
the directory in which it stands, the path that it holds and the components behind it. -/
inductive Advance
  | arrived (location : Location)
  | linked (link directory : Location) (target : PurePath) (rest : List String)
  deriving DecidableEq, Repr

namespace FileTree

/-- What stands at a location. -/
def nodeAt? (tree : FileTree) (location : Location) : Option FileNode :=
  if location.isPrefixOf tree.workingDirectory then some .directory
  else (tree.nodes.find? fun e => e.1 = location).map (·.2)

/-- What a file holds. -/
def content (tree : FileTree) (number : Nat) : List UInt8 :=
  match tree.contents.find? fun e => e.1 = number with
  | some e => e.2
  | none => []

/-- The file or the directory at a location, if there is one. -/
def entryAt? (tree : FileTree) (location : Location) : Option FileEntry :=
  match tree.nodeAt? location with
  | some (.file number) => some (.file (tree.content number))
  | some .directory => some .directory
  | some (.link _) | none => none

/-! ### Following paths -/

/-- The location with one component more or, for two points, one less. -/
def step (location : Location) (component : String) : Location :=
  if component = ".." then location.dropLast else location ++ [component]

/-- Where a path starts that stands in a directory. -/
def startFrom (directory : Location) (path : PurePath) : Location :=
  if path.slashes = 0 then directory else []

/-- Where a path starts. -/
def start (tree : FileTree) (path : PurePath) : Location := startFrom tree.workingDirectory path

/-- The longest name of a file, in bytes. -/
def nameLimit : Nat := 255

/-- The longest path in bytes. -/
def pathLimit : Nat := 4095

/-- How many links are followed on the way of a path. -/
def linkLimit : Nat := 40

/-- How far components lead from a directory without following a link. All of them but the last have
to lead to directories; the last need not lead to anything. -/
def advance (tree : FileTree) (location : Location) : List String → Except FileFault Advance
  | [] => .ok (.arrived location)
  | component :: rest =>
    match tree.nodeAt? location with
    | none => .error .notFound
    | some .directory =>
      if nameLimit < component.utf8ByteSize then .error .nameTooLong
      else
        match tree.nodeAt? (step location component) with
        | some (.link target) => .ok (.linked (step location component) location target rest)
        | _ => tree.advance (step location component) rest
    | some (.file _) | some (.link _) => .error .notDirectory

/-- The location to which components lead from a directory if so many links may be followed. A link at
their end is followed only on demand. -/
def follow (tree : FileTree) (throughLast : Bool) :
    (links : Nat) → Location → List String → Except FileFault Location
  | links, location, components =>
    match tree.advance location components with
    | .error fault => .error fault
    | .ok (.arrived last) => .ok last
    | .ok (.linked link directory target rest) =>
      if rest.isEmpty && !throughLast then .ok link
      else
        match links with
        | 0 => .error .tooManyLinks
        | links + 1 =>
          tree.follow throughLast links (startFrom directory target) (target.parts ++ rest)

/-- The location that a path leads to; if the path may end at a link, that of the link. -/
def locateWith (tree : FileTree) (throughLast : Bool) (path : PurePath) :
    Except FileFault Location :=
  if pathLimit < path.toString.utf8ByteSize then .error .nameTooLong
  else tree.follow throughLast linkLimit (tree.start path) path.parts

/-- The location that a path leads to through all links. -/
def locate (tree : FileTree) (path : PurePath) : Except FileFault Location :=
  tree.locateWith true path

/-- What a path leads to. -/
def lookUp (tree : FileTree) (path : PurePath) : Except FileFault FileEntry :=
  match tree.locate path with
  | .error fault => .error fault
  | .ok location =>
    match tree.entryAt? location with
    | some entry => .ok entry
    | none => .error .notFound

/-- The content of the file that a path leads to. -/
def read (tree : FileTree) (path : PurePath) : Except FileFault (List UInt8) :=
  match tree.lookUp path with
  | .error fault => .error fault
  | .ok .directory => .error .isDirectory
  | .ok (.file content) => .ok content

/-- Whether a path leads to a directory. -/
def isDirectory (tree : FileTree) (path : PurePath) : Bool :=
  match tree.lookUp path with
  | .ok .directory => true
  | _ => false

/-- The path of a location. -/
def pathOf (location : Location) : PurePath := ⟨1, location⟩

/-! ### Changes -/

/-- A tree with a node added or replaced. -/
def put (tree : FileTree) (location : Location) (node : FileNode) : FileTree :=
  { tree with nodes := (location, node) :: tree.nodes.filter fun e => e.1 ≠ location }

/-- A tree in which a file holds something else. -/
def fill (tree : FileTree) (number : Nat) (content : List UInt8) : FileTree :=
  { tree with contents := (number, content) :: tree.contents.filter fun e => e.1 ≠ number }

/-- A number behind that of a file. -/
def numberAfter : FileNode → Nat
  | .file number => number + 1
  | _ => 0

/-- A number that no file has. -/
def freeNumber (tree : FileTree) : Nat := (tree.nodes.map fun e => numberAfter e.2).foldr max 0

/-- A tree with a new file. -/
def putFile (tree : FileTree) (location : Location) (content : List UInt8) : FileTree :=
  (tree.put location (.file tree.freeNumber)).fill tree.freeNumber content

/-- Writes a file into a directory that exists, or into the file that the path leads to. -/
def write (tree : FileTree) (path : PurePath) (content : List UInt8) :
    Except FileFault FileTree :=
  match tree.locate path with
  | .error fault => .error fault
  | .ok location =>
    match tree.nodeAt? location with
    | some .directory => .error .isDirectory
    | some (.link _) => .error .tooManyLinks
    | some (.file number) => .ok (tree.fill number content)
    | none => .ok (tree.putFile location content)

/-- Makes one directory, but not through a link. -/
def makeDirectory (tree : FileTree) (path : PurePath) : Except FileFault FileTree :=
  match tree.locateWith false path with
  | .error fault => .error fault
  | .ok location =>
    match tree.nodeAt? location with
    | some _ => .error .exists
    | none =>
      match tree.nodeAt? location.dropLast with
      | some .directory => .ok (tree.put location .directory)
      | some _ => .error .notDirectory
      | none => .error .notFound

/-- Makes a directory and the missing directories above it; a directory that is there already is
fine. What has been made stays if a fault stops the making, and the fault comes with the path at which
it arose. The number bounds the directories above. -/
def makeDirectories (tree : FileTree) (path : PurePath) :
    (fuel : Nat) → FileTree × Option (FileFault × PurePath)
  | 0 => (tree, some (.notFound, path))
  | fuel + 1 =>
    match tree.makeDirectory path with
    | .ok made => (made, none)
    | .error .notFound =>
      if path.parts.isEmpty then (tree, some (.notFound, path))
      else
        match tree.makeDirectories path.parent fuel with
        | (made, some fault) => (made, some fault)
        | (made, none) =>
          match made.makeDirectory path with
          | .ok result => (result, none)
          | .error fault =>
            (made, if made.isDirectory path then none else some (fault, path))
    | .error fault => (tree, if tree.isDirectory path then none else some (fault, path))

/-- Makes the directory that is to hold a path, and the missing ones above it. -/
def makeParents (tree : FileTree) (path : PurePath) : FileTree × Option (FileFault × PurePath) :=
  tree.makeDirectories path.parent (path.parts.length + 1)

end FileTree

end Folio
