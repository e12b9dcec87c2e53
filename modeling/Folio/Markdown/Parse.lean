import Folio.Markdown.Assembly
import Folio.Markdown.InlineContent
import Folio.Markdown.Structure

/-!
# Reading Markdown

A text is read into tokens, first its blocks and then, with all references known, the inline content
of each block; the tokens are assembled into the tree of the text.
-/

set_option autoImplicit false
set_option relaxedAutoImplicit false

namespace Folio.Markdown

/-- Why a text cannot be read. -/
inductive Fault
  | text (fault : TextFault)
  | stream (fault : StreamFault)
  deriving DecidableEq, Repr

/-- The text that reports a fault. -/
def Fault.message : Fault → String
  | text fault => fault.message
  | stream fault => fault.message

/-- The tokens of a text. -/
def tokens (text : String) : Except TextFault (List Token) :=
  (blockTokens (normalizedText text.toList)).map fun (ts, references) =>
    ts.map fun t =>
      if t.kind = .inline then { t with children := inlineTokens references t.content.toList } else t

/-- The blocks of a text. -/
def parse (text : String) : Except Fault (List Block) := do
  let ts ← (tokens text).mapError .text
  (blocksOf ts).mapError .stream

/-- The tokens of a stream that have no place in the tree: whether they stand among blocks, and their
names. -/
def strayTokens (ts : List Token) : List (Bool × String) :=
  ts.flatMap fun t =>
    match t.kind with
    | .other name => [(true, name)]
    | .inline => (strayInlines t.children).map fun name => (false, name)
    | _ => []

end Folio.Markdown
