import Folio.Command.Footprint
import Folio.Package.Parts

/-!
# The program

The program reads what a run may look at into a tree of files, runs the command on that tree, writes
what has changed, and shows the log on the standard error stream. It sees what links lead to in the
place of the links. It has no network client: each request is refused, so that images from the network
are replaced by their captions. It packages documents by itself (`Package.content`).
-/

set_option autoImplicit false
set_option relaxedAutoImplicit false

namespace Folio

/-- How the program is called. -/
def usage : String :=
  "usage: markdocx [-h] [-o OUTPUT] [--config CONFIG] [--verbose] input"

/-- The number that a file system gives to the refusal to read a directory as a file. -/
def directoryRefusal : UInt32 := 21

/-- What stands at a location on disk, as far as it can be read. -/
def entryOnDisk (location : Location) : IO (Option FileEntry) := do
  try
    let content ← IO.FS.readBinFile (FileTree.pathOf location).toString
    return some (.file content.toList)
  catch
    | .inappropriateType _ code _ => return if code = directoryRefusal then some .directory else none
    | _ => return none

/-- A tree in which all that stands on the way of some paths on disk has its entry. -/
def explored (tree : FileTree) (paths : List PurePath) : IO FileTree := do
  let mut tree := tree
  for location in (paths.flatMap tree.visited).eraseDups do
    match ← entryOnDisk location with
    | some (.file content) => tree := tree.putFile location content
    | some .directory => tree := tree.put location .directory
    | none => pure ()
  return tree

/-- Makes an entry on disk. -/
def makeOnDisk (entry : Location × FileEntry) : IO Unit :=
  let path := (FileTree.pathOf entry.1).toString
  match entry.2 with
  | .directory => IO.FS.createDir path
  | .file content => IO.FS.writeBinFile path ⟨content.toArray⟩

/-- The values of those environment variables that matter. -/
def environment : IO Environment := do
  let values ← [Environment.timeoutName, Environment.agentName].mapM fun name =>
    return (name, ← IO.getEnv name)
  return values.filterMap fun (name, value) => value.map (name, ·)

/-- The system that a run starts from, with all the files it may look at. -/
def systemFor (arguments : Arguments) : IO System := do
  let home ← IO.getEnv "HOME"
  let here := PurePath.ofString (← IO.currentDir).toString
  let homes : Homes := fun user => if user = "" then home else none
  let system : System := {
    environment := ← environment
    homes
    files := ← explored { workingDirectory := here.parts } (arguments.paths homes)
    web := fun _ _ => .refused "no network connection"
    package := Package.content }
  return { system with files := ← explored system.files (system.imagePaths arguments) }

/-- Runs the command with what it is called with. -/
def run (arguments : Arguments) : IO UInt32 := do
  let system ← systemFor arguments
  let outcome := system.execute (.run arguments)
  (outcome.files.entriesSince system.files).forM makeOnDisk
  outcome.log.forM fun record => IO.eprintln record.line
  match outcome.result with
  | .ok status => return UInt32.ofNat status
  | .error fault =>
    IO.eprintln fault.message
    return 1

end Folio

/-- Runs what the command line asks for. -/
def main (texts : List String) : IO UInt32 :=
  match Folio.Command.ofTexts texts with
  | .run arguments => Folio.run arguments
  | .help => do
    IO.println Folio.usage
    return 0
  | .misused => do
    IO.eprintln Folio.usage
    return 2
