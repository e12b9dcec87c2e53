import Folio.Markdown.Token
import Folio.Text.Cut
import Folio.Text.Digit
import Folio.Text.Quoted
import Folio.Tree

/-!
# From tokens to the tree

A stream of tokens is read from left to right, and what has been opened and not yet closed is kept
on a stack with the innermost in front. A closing token counts only if it closes the innermost frame;
what is still open at the end of the stream is closed there.

Headings, paragraphs and table cells take the token after their opening token as their content, and
the token after that as their end, whatever these are. So a stream can end too early, and a heading
can have a tag without a level (`StreamFault`).

Emphasis right inside emphasis is folded into one node where the delimiters of the two add up to
three (`foldedEmphasis`). The reading of inline content takes the maker of emphasis as a parameter,
so that it can be compared with the reading that does not fold.
-/

set_option autoImplicit false
set_option relaxedAutoImplicit false

namespace Folio.Markdown

/-! ### Inline content -/

/-- Emphasis with some delimiters around children. Italic right around bold, or the other way round,
is one node with three delimiters. -/
def foldedEmphasis (delimiters : Int) (children : List Inline) : Inline :=
  match children with
  | [.emphasis inner grandchildren] =>
    if inner + delimiters = 3 then .emphasis 3 grandchildren else .emphasis delimiters children
  | _ => .emphasis delimiters children

/-- Inline content that has been opened, with what stands before it. -/
inductive InlineFrame
  | italic (before : List Inline)
  | bold (before : List Inline)
  | link (url : String) (title : Option String) (before : List Inline)

/-- The kind of token that closes a frame. -/
def InlineFrame.closing : InlineFrame → TokenKind
  | italic _ => .emphasisClose
  | bold _ => .strongClose
  | link _ _ _ => .linkClose

/-- How far the reading of inline content has come: the content of the innermost frame, and the
frames around it. -/
structure InlineReading where
  content : List Inline := []
  frames : List InlineFrame := []

namespace InlineReading

/-- A reading with one more piece of content. -/
def add (r : InlineReading) (x : Inline) : InlineReading :=
  { r with content := r.content ++ [x] }

/-- The content around a frame, once the frame is closed. -/
def closed (emphasis : Int → List Inline → Inline) (content : List Inline) :
    InlineFrame → List Inline
  | .italic before => before ++ [emphasis 1 content]
  | .bold before => before ++ [emphasis 2 content]
  | .link url title before => before ++ [.link url title content]

/-- A reading after a token that may close the innermost frame. -/
def leave (emphasis : Int → List Inline → Inline) (r : InlineReading) (kind : TokenKind) :
    InlineReading :=
  match r.frames with
  | [] => r
  | f :: fs => if f.closing = kind then ⟨closed emphasis r.content f, fs⟩ else r

/-- The content of a reading once all of its frames are closed. -/
def finish (emphasis : Int → List Inline → Inline) (r : InlineReading) : List Inline :=
  r.frames.foldl (closed emphasis) r.content

end InlineReading

mutual

/-- A reading of inline content after one more token. -/
def readInline (emphasis : Int → List Inline → Inline) (r : InlineReading) : Token → InlineReading
  | ⟨kind, _, content, target, title, children⟩ =>
    match kind with
    | .text | .specialText => if content = "" then r else r.add (.text content)
    | .softBreak => r.add (.text " ")
    | .hardBreak => r.add .lineBreak
    | .codeSpan => r.add (.code content)
    | .emphasisOpen => ⟨[], .italic r.content :: r.frames⟩
    | .strongOpen => ⟨[], .bold r.content :: r.frames⟩
    | .linkOpen => ⟨[], .link target title r.content :: r.frames⟩
    | .image =>
      r.add (.image target title ((readInlines emphasis {} children).finish emphasis))
    | kind => r.leave emphasis kind

/-- A reading of inline content after more tokens. -/
def readInlines (emphasis : Int → List Inline → Inline) (r : InlineReading) :
    List Token → InlineReading
  | [] => r
  | t :: ts => readInlines emphasis (readInline emphasis r t) ts

end

/-- The inline content that a stream of tokens stands for. -/
def inlinesOf (ts : List Token) : List Inline :=
  (readInlines foldedEmphasis {} ts).finish foldedEmphasis

/-! ### Blocks -/

/-- Why a stream of tokens cannot be read. -/
inductive StreamFault
  /-- The stream ends where a token is needed. -/
  | endOfStream
  /-- The tag of a heading has no second character. -/
  | shortTag
  /-- The second character of the tag of a heading is not a digit. -/
  | badLevel (c : Char)
  deriving DecidableEq, Repr

/-- The text that reports a fault. -/
def StreamFault.message : StreamFault → String
  | endOfStream => "list index out of range"
  | shortTag => "string index out of range"
  | badLevel c => "invalid literal for int() with base 10: " ++ quoted (String.singleton c)

/-- The level that the tag of a heading tells. -/
def headingLevel (tag : String) : Except StreamFault Int :=
  match tag.toList with
  | _ :: c :: _ =>
    match decimalValue? c with
    | some n => .ok n
    | none => .error (.badLevel c)
  | _ => .error .shortTag

/-- The lines of a code block. Line feeds at the end are dropped, and each other line feed stands
between two lines; a code block without content has no lines. -/
def codeLines (content : String) : List String :=
  if content = "" then []
  else
    let kept := (content.toList.reverse.dropWhile (· = '\n')).reverse
    (splitOnChar '\n' kept).map String.ofList

/-- A block that has been opened, with what it holds so far. -/
inductive BlockFrame
  | quote (blocks : List Block)
  | list (ordered : Bool) (items : List (List Block))
  | item (ordered : Bool) (items : List (List Block)) (blocks : List Block)
  | table (inHead : Bool) (rows : List TableRow)
  | row (inHead : Bool) (rows : List TableRow) (cells : List (List Inline))

namespace BlockFrame

/-- The block that a frame holds, if it is closed as it is. -/
def block : BlockFrame → Block
  | quote blocks => .quote blocks
  | list ordered items => .list ordered items
  | item ordered items blocks => .list ordered (items ++ [blocks])
  | table _ rows => .table rows
  | row inHead rows cells => .table (rows ++ [⟨inHead, cells⟩])

/-- A frame that holds one more block, if it holds blocks. -/
def add (b : Block) : BlockFrame → BlockFrame
  | quote blocks => .quote (blocks ++ [b])
  | item ordered items blocks => .item ordered items (blocks ++ [b])
  | f => f

end BlockFrame

/-- What the content that comes next belongs to. -/
inductive ContentUse
  | heading (level : Int)
  | paragraph
  | cell

/-- What the next token is taken for. -/
inductive Expected
  | anything
  | content (use : ContentUse)
  | ending

/-- How far the reading of blocks has come: the blocks of the outermost level, the frames that are
open, the innermost in front, and what the next token is taken for. -/
structure BlockReading where
  blocks : List Block := []
  frames : List BlockFrame := []
  expected : Expected := .anything

namespace BlockReading

/-- A reading with one more block in the innermost frame. -/
def add (r : BlockReading) (b : Block) : BlockReading :=
  match r.frames with
  | [] => { r with blocks := r.blocks ++ [b] }
  | f :: fs => { r with frames := f.add b :: fs }

/-- A reading with another frame opened. -/
def enter (r : BlockReading) (f : BlockFrame) : BlockReading := { r with frames := f :: r.frames }

/-- A reading that takes the next token for content. -/
def await (r : BlockReading) (use : ContentUse) : BlockReading :=
  { r with expected := .content use }

/-- A reading that has taken content. -/
def put (r : BlockReading) (content : List Inline) : ContentUse → BlockReading
  | .heading level => r.add (.heading level content)
  | .paragraph => r.add (.paragraph content)
  | .cell =>
    match r.frames with
    | .row inHead rows cells :: fs =>
      { r with frames := .row inHead rows (cells ++ [content]) :: fs }
    | _ => r

/-- A reading in which the innermost frame, a quote or a list or a table, has been closed. -/
def leave (r : BlockReading) : BlockReading :=
  match r.frames with
  | [] => r
  | f :: fs => { r with frames := fs }.add f.block

/-- A reading after a token that stands among blocks. -/
def takeBlock (r : BlockReading) (t : Token) : Except StreamFault BlockReading :=
  match t.kind with
  | .headingOpen => (headingLevel t.tag).map fun level => r.await (.heading level)
  | .paragraphOpen => .ok (r.await .paragraph)
  | .bulletListOpen => .ok (r.enter (.list false []))
  | .orderedListOpen => .ok (r.enter (.list true []))
  | .quoteOpen => .ok (r.enter (.quote []))
  | .fence => .ok (r.add (.code (codeLines t.content)))
  | .indentedCode => .ok (r.add (.code (codeLines t.content)))
  | .rule => .ok (r.add .rule)
  | .tableOpen => .ok (r.enter (.table false []))
  | _ => .ok r

/-- The kind of token that closes a list. -/
def listClosing (ordered : Bool) : TokenKind :=
  if ordered then .orderedListClose else .bulletListClose

/-- A reading after a token that is not taken for content or for an end. -/
def take (r : BlockReading) (t : Token) : Except StreamFault BlockReading :=
  match r.frames with
  | .list ordered items :: fs =>
    if t.kind = listClosing ordered then .ok r.leave
    else if t.kind = .itemOpen then .ok { r with frames := .item ordered items [] :: fs }
    else .ok r
  | .item ordered items blocks :: fs =>
    if t.kind = .itemClose then .ok { r with frames := .list ordered (items ++ [blocks]) :: fs }
    else r.takeBlock t
  | .quote _ :: _ => if t.kind = .quoteClose then .ok r.leave else r.takeBlock t
  | .table inHead rows :: fs =>
    match t.kind with
    | .headOpen => .ok { r with frames := .table true rows :: fs }
    | .headClose => .ok { r with frames := .table false rows :: fs }
    | .rowOpen => .ok { r with frames := .row inHead rows [] :: fs }
    | .tableClose => .ok r.leave
    | _ => .ok r
  | .row inHead rows cells :: fs =>
    match t.kind with
    | .rowClose => .ok { r with frames := .table inHead (rows ++ [⟨inHead, cells⟩]) :: fs }
    | .headerCellOpen | .cellOpen => .ok (r.await .cell)
    | _ => .ok r
  | [] => r.takeBlock t

/-- A reading after one more token. -/
def read (r : BlockReading) (t : Token) : Except StreamFault BlockReading :=
  match r.expected with
  | .anything => r.take t
  | .content use => .ok { r.put (inlinesOf t.children) use with expected := .ending }
  | .ending => .ok { r with expected := .anything }

/-- The blocks of the outermost level once all frames are closed. -/
def settled (blocks : List Block) : Option Block → List BlockFrame → List Block
  | b, [] => blocks ++ b.toList
  | none, f :: fs => settled blocks (some f.block) fs
  | some b, f :: fs => settled blocks (some (f.add b).block) fs

/-- The blocks of a reading at the end of a stream. A row cannot end there, and neither can the wait
for content. -/
def finish (r : BlockReading) : Except StreamFault (List Block) :=
  match r.expected, r.frames with
  | .content _, _ => .error .endOfStream
  | _, .row _ _ _ :: _ => .error .endOfStream
  | _, frames => .ok (settled r.blocks none frames)

end BlockReading

/-- The blocks that a stream of tokens stands for. -/
def blocksOf (ts : List Token) : Except StreamFault (List Block) :=
  (ts.foldlM BlockReading.read {}).bind BlockReading.finish

/-! ### Tokens without a place in the tree -/

mutual

/-- The names of the inline tokens that have no place in the tree, in the order of reading. -/
def strayInline : Token → List String
  | ⟨.other name, _, _, _, _, _⟩ => [name]
  | ⟨.image, _, _, _, _, children⟩ => strayInlines children
  | _ => []

/-- The names of the inline tokens of a stream that have no place in the tree. -/
def strayInlines : List Token → List String
  | [] => []
  | t :: ts => strayInline t ++ strayInlines ts

end

end Folio.Markdown
