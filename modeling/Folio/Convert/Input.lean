import Folio.Path.Tree
import Folio.Text.Blank
import Folio.Text.Case
import Folio.Text.Utf8

/-!
# The Markdown file

A Markdown file is known by the suffix of its name. Its text is UTF-8, and it has to hold something
but blank characters.
-/

set_option autoImplicit false
set_option relaxedAutoImplicit false

namespace Folio

/-- Why there is no Markdown text at a path. -/
inductive InputFault
  | notFound (path : String)
  | notMarkdown (path : String)
  | undecodable (path : String)
  | unreadable (path : String) (fault : FileFault)
  | empty (path : String)
  /-- It cannot even be told whether there is a file. -/
  | inaccessible (path : String) (fault : FileFault)
  deriving DecidableEq, Repr

namespace InputFault

/-- The text that reports why there is no Markdown text. -/
def message : InputFault → String
  | notFound path => "Input file not found: " ++ path
  | notMarkdown path => "Not a Markdown file (.md, .markdown or .txt): " ++ path
  | undecodable path => "Input file is not valid UTF-8: " ++ path
  | unreadable path fault => "Cannot read input file " ++ path ++ ": " ++ fault.message path
  | empty path => "Input file is empty: " ++ path
  | inaccessible path fault => fault.message path

/-- Whether a cause is told to the user as a fault of the input. -/
def isReported : InputFault → Bool
  | inaccessible _ _ => false
  | _ => true

end InputFault

/-- Whether a name is that of a Markdown file, by its suffix in any letter case. -/
def isMarkdownPath (path : PurePath) : Bool :=
  [".md", ".markdown", ".txt"].contains (lowered path.suffix)

/-- The text of a Markdown file, from its content. -/
def markdownText (path : String) (content : List UInt8) : Except InputFault String :=
  match readUtf8 content with
  | .error _ => .error (.undecodable path)
  | .ok chars =>
    let text := withLineFeeds chars
    if text.all isBlank then .error (.empty path) else .ok (String.ofList text)

/-- The text of the Markdown file at a path. -/
def readMarkdown (files : FileTree) (path : PurePath) : Except InputFault String :=
  let name := path.toString
  if path.holdsNul then .error (.notFound name)
  else
    match files.lookUp path with
    | .error .nameTooLong => .error (.inaccessible name .nameTooLong)
    | .error _ => .error (.notFound name)
    | .ok entry =>
      if !isMarkdownPath path then .error (.notMarkdown name)
      else
        match entry with
        | .directory => .error (.unreadable name .isDirectory)
        | .file content => markdownText name content

end Folio
