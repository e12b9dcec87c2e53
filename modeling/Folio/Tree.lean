/-!
# The tree of a text

What a text says, apart from how it was written: a sequence of blocks, whose paragraphs, headings
and table cells hold inline content. A block or a piece of inline content of a kind that nothing
else knows is `unknown`. Its kind is not kept, so that what is written of it is nothing at all, not
even the debugging record that would name its kind.
-/

set_option autoImplicit false
set_option relaxedAutoImplicit false

namespace Folio

/-- A piece of inline content. Emphasis carries the number of its delimiters: one for italic, two
for bold, three for both. -/
inductive Inline
  | text (content : String)
  | emphasis (delimiters : Int) (children : List Inline)
  | code (content : String)
  | lineBreak
  | link (url : String) (title : Option String) (children : List Inline)
  | image (url : String) (title : Option String) (alt : List Inline)
  | unknown
  deriving Inhabited

/-- A row of a table. -/
structure TableRow where
  header : Bool
  cells : List (List Inline)

/-- A block. -/
inductive Block
  | heading (level : Int) (content : List Inline)
  | paragraph (content : List Inline)
  | list (ordered : Bool) (items : List (List Block))
  | code (lines : List String)
  | quote (blocks : List Block)
  | rule
  | table (rows : List TableRow)
  | unknown
  deriving Inhabited

end Folio
