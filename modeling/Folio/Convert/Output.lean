import Folio.Path.Tree

/-!
# The document file

A document is written where the user asks for it, into a directory under the name of the input if the
user names a directory, and beside the input if nothing is asked for. The directories above it are
made if they are missing.
-/

set_option autoImplicit false
set_option relaxedAutoImplicit false

namespace Folio

/-- Why a document is not written. -/
inductive OutputFault
  | noName (path : PurePath)
  | refused (path : PurePath) (fault : FileFault)
  | nulInPath
  deriving DecidableEq, Repr

/-- The text that reports why a document is not written. -/
def OutputFault.message : OutputFault → String
  | noName path => "PosixPath(" ++ quoted path.toString ++ ") has an empty name"
  | refused path fault => fault.message path.toString
  | nulInPath => "embedded null byte"

/-- The suffix of a document. -/
def documentSuffix : String := ".docx"

/-- The path of the document that is to be made from an input; an output that is empty counts as
none. -/
def outputPath (files : FileTree) (input : PurePath) (output : Option String) :
    Except OutputFault PurePath :=
  match output.filter (· ≠ "") with
  | none =>
    match input.withSuffix? documentSuffix with
    | some path => .ok path
    | none => .error (.noName input)
  | some output =>
    let path := PurePath.ofString output
    if path.holdsNul then .ok path
    else
      match files.lookUp path with
      | .ok .directory => .ok (path.join (.ofString (input.stem ++ documentSuffix)))
      | .error .nameTooLong => .error (.refused path .nameTooLong)
      | _ => .ok path

/-- Writes a document to a path. The directories that have been made for it stay if it cannot be
written. -/
def writeOutput (files : FileTree) (path : PurePath) (content : List UInt8) :
    FileTree × Option OutputFault :=
  if path.parent.holdsNul then (files, some .nulInPath)
  else
    match files.makeParents path with
    | (files, some (fault, place)) => (files, some (.refused place fault))
    | (files, none) =>
      if path.holdsNul then (files, some .nulInPath)
      else
        match files.write path content with
        | .error fault => (files, some (.refused path fault))
        | .ok files => (files, none)

end Folio
