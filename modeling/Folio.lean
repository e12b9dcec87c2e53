import Folio.Command.Arguments
import Folio.Command.Footprint
import Folio.Command.Run
import Folio.Convert.Input
import Folio.Convert.Markdown
import Folio.Convert.Output
import Folio.Failure
import Folio.Fetch.Kind
import Folio.Fetch.Local
import Folio.Fetch.Result
import Folio.Fetch.Web
import Folio.Main
import Folio.Markdown.Assembly
import Folio.Markdown.Character
import Folio.Markdown.Definition
import Folio.Markdown.Delimiter
import Folio.Markdown.Destination
import Folio.Markdown.Escape
import Folio.Markdown.InlineContent
import Folio.Markdown.Leaf
import Folio.Markdown.Line
import Folio.Markdown.LinkPart
import Folio.Markdown.ListMark
import Folio.Markdown.NamedCharacter
import Folio.Markdown.Parse
import Folio.Markdown.Span
import Folio.Markdown.Structure
import Folio.Markdown.Table
import Folio.Markdown.Tag
import Folio.Markdown.Token
import Folio.Number.Binary64
import Folio.Number.Numeral
import Folio.Number.Power
import Folio.Number.Shortest
import Folio.Package.Archive
import Folio.Package.Parts
import Folio.Path.Home
import Folio.Path.Pure
import Folio.Path.Resolve
import Folio.Path.Tree
import Folio.Render.Block
import Folio.Render.Document
import Folio.Render.Image
import Folio.Render.Inline
import Folio.Render.Session
import Folio.Render.State
import Folio.Render.Step
import Folio.Settings.Basic
import Folio.Settings.Entries
import Folio.Settings.Fault
import Folio.Settings.Field
import Folio.Settings.Override
import Folio.Settings.Source
import Folio.Settings.Value
import Folio.Style
import Folio.Text.Blank
import Folio.Text.Case
import Folio.Text.Cut
import Folio.Text.Digit
import Folio.Text.Printable
import Folio.Text.Punctuation
import Folio.Text.Quoted
import Folio.Text.Range
import Folio.Text.Utf8
import Folio.Tree
import Folio.Tree.Text
import Folio.Url.Host
import Folio.Url.Loose
import Folio.Url.Percent
import Folio.Url.Punycode
import Folio.Url.Split
import Folio.Url.Target
import Folio.Word.Character
import Folio.Word.Color
import Folio.Word.Length
import Folio.Word.Markup
import Folio.Word.Package
import Folio.Word.Paragraph
import Folio.Word.Run
import Folio.Word.Sequence
import Folio.Word.Table
import Folio.Yaml.Cursor
import Folio.Yaml.Fault
import Folio.Yaml.Kind
import Folio.Yaml.Layout
import Folio.Yaml.Merge
import Folio.Yaml.Node
import Folio.Yaml.Parse
import Folio.Yaml.Property
import Folio.Yaml.Scalar.Block
import Folio.Yaml.Scalar.Convert
import Folio.Yaml.Scalar.Plain
import Folio.Yaml.Scalar.Quoted
import Folio.Yaml.Token
import Folio.Proofs.Fragment
import Folio.Proofs.Settings
import Folio.Proofs.Style
import Folio.Proofs.View
import Folio.Proofs.Image
import Folio.Proofs.Hyperlink
import Folio.Proofs.Passage
import Folio.Proofs.Part
import Folio.Proofs.Flattening
import Folio.Proofs.Reading
import Folio.Proofs.Relationships
import Folio.Proofs.Outcome
import Folio.Proofs.Growth
import Folio.Proofs.Retry
import Folio.Proofs.References
import Folio.Proofs.Registration
import Folio.Proofs.Building
import Folio.Proofs.Rollback
import Folio.Proofs.Media
import Folio.Proofs.Clean
import Folio.Proofs.Dyadic
import Folio.Proofs.Magnitude
import Folio.Proofs.Indentation
import Folio.Proofs.Totality
import Folio.Proofs.InlineStream
import Folio.Proofs.BlockStream
import Folio.Proofs.Numbering
import Folio.Proofs.Markup
import Folio.Proofs.Placement
import Folio.Proofs.Look
import Folio.Proofs.Styling
import Folio.Proofs.Embedding
import Folio.Proofs.Fence
import Folio.Proofs.ImageUrls
import Folio.Proofs.Loads
import Folio.Proofs.Appending
import Folio.Proofs.Degradation
import Folio.Proofs.Conversion
import Folio.Proofs.Format
import Folio.Proofs.Outline
import Folio.Proofs.Grid
import Folio.Proofs.Folding
import Folio.Proofs.Following
import Folio.Proofs.PathText
import Folio.Proofs.Containment
import Folio.Proofs.SettingsFile
import Folio.Proofs.Extent
import Folio.Proofs.Usable
import Folio.Proofs.Overrides
import Folio.Proofs.Spelling
import Folio.Proofs.UrlPath
import Folio.Proofs.ImageKind
import Folio.Proofs.Pruning
import Folio.Proofs.SchemaOrder
import Folio.Proofs.PropertyEdits
import Folio.Proofs.Directories
import Folio.Proofs.Saving
import Folio.Proofs.Descent
import Folio.Proofs.DescentAgrees
import Folio.Proofs.ContentOrder
