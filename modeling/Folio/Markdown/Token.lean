/-!
# Tokens of Markdown

A text in Markdown is read into a stream of tokens. Blocks that hold other blocks, and inline content
that holds other inline content, stand between an opening and a closing token; the inline content of
a block is one `inline` token with children. A kind that the tree of a text has no place for is kept
by its name only.
-/

set_option autoImplicit false
set_option relaxedAutoImplicit false

namespace Folio.Markdown

/-- The kind of a token. -/
inductive TokenKind
  | headingOpen
  | headingClose
  | paragraphOpen
  | paragraphClose
  | inline
  | bulletListOpen
  | bulletListClose
  | orderedListOpen
  | orderedListClose
  | itemOpen
  | itemClose
  | quoteOpen
  | quoteClose
  | fence
  | indentedCode
  | rule
  | tableOpen
  | tableClose
  | headOpen
  | headClose
  | bodyOpen
  | bodyClose
  | rowOpen
  | rowClose
  | headerCellOpen
  | headerCellClose
  | cellOpen
  | cellClose
  | text
  | specialText
  | softBreak
  | hardBreak
  | emphasisOpen
  | emphasisClose
  | strongOpen
  | strongClose
  | codeSpan
  | linkOpen
  | linkClose
  | image
  | other (name : String)
  deriving DecidableEq, Repr, Inhabited

/-- A token. The tag of a heading holds its level as second character; `target` is the URL of a link
or of an image. -/
structure Token where
  kind : TokenKind
  tag : String := ""
  content : String := ""
  target : String := ""
  title : Option String := none
  children : List Token := []
  deriving Inhabited

/-- How deep blocks may stand in blocks, and labels in labels, for their content to be looked at. -/
def mostNested : Nat := 20

end Folio.Markdown
