import Folio.Markdown.Delimiter
import Folio.Markdown.Span

/-!
# Inline content

The text of a block is read span by span into tokens (`inlineTokens`). Plain characters are gathered
until something else follows; the label of a link is read as a text within the text, and the label of
an image as a text of its own. Delimiters of emphasis are kept as they are until the end of the text
that they stand in, and are resolved there.
-/

set_option autoImplicit false
set_option relaxedAutoImplicit false

namespace Folio.Markdown

/-- What has been read of a text: the pieces, and the plain characters since the last of them, the
latest in front. -/
structure Draft where
  pieces : List Piece := []
  gathered : List Char := []

namespace Draft

/-- A draft with more plain characters. -/
def gather (d : Draft) (cs : List Char) : Draft := { d with gathered := cs.reverse ++ d.gathered }

/-- The pieces of a draft, the latest in front, with the gathered characters as the last of them. -/
def settled (d : Draft) : List Piece :=
  if d.gathered.isEmpty then d.pieces
  else .token (textToken (String.ofList d.gathered.reverse)) :: d.pieces

/-- A draft with more tokens. -/
def add (d : Draft) (ts : List Token) : Draft :=
  { pieces := (ts.map Piece.token).reverse ++ d.settled }

/-- A draft with a line break. Two spaces in front of it make it a hard one. -/
def breakLine (d : Draft) : Draft :=
  let spaces := (d.gathered.takeWhile (· = ' ')).length
  let d := { d with gathered := d.gathered.drop spaces }
  d.add [{ kind := if 2 ≤ spaces then .hardBreak else .softBreak }]

/-- A draft with a run of delimiters. -/
def addDelimiters (d : Draft) (mark : Char) (length : Nat) (flank : Flank) : Draft :=
  { pieces := List.replicate length (.delimiter mark length flank) ++ d.settled }

/-- The tokens of a draft. -/
def tokens (d : Draft) : List Token := resolve d.settled.reverse

end Draft

/-- A title, if it is not empty. -/
def titleOf (title : String) : Option String := if title = "" then none else some title

/-- The flank of the run of delimiters between two places. -/
def Source.flank (s : Source) (stop i next : Nat) : Flank :=
  Flank.ofSides (if i = 0 then ' ' else s.charAt (i - 1)) (if next < stop then s.charAt next else ' ')
    (s.charAt i = '*')

mutual

/-- The draft of a text from a place on. -/
def draftFrom (s : Source) (depth stop i : Nat) (d : Draft) : StateM Skipped Draft := do
  if _ : i < stop then
    let c := s.charAt i
    if c = '*' || c = '_' then
      let next := max (i + 1) (s.skipWhile (· = c) stop i)
      draftFrom s depth stop next (d.addDelimiters c (next - i) (s.flank stop i next))
    else
      match ← s.span? depth stop i with
      | none => draftFrom s depth stop (i + 1) (d.gather [c])
      | some ⟨kind, next⟩ =>
        let next := max (i + 1) next
        match kind with
        | .plain cs => draftFrom s depth stop next (d.gather cs)
        | .newline => draftFrom s depth stop next d.breakLine
        | .hardBreak => draftFrom s depth stop next (d.add [{ kind := .hardBreak }])
        | .special cs =>
          draftFrom s depth stop next
            (d.add [{ kind := .specialText, content := String.ofList cs }])
        | .code cs =>
          draftFrom s depth stop next (d.add [{ kind := .codeSpan, content := String.ofList cs }])
        | .html => draftFrom s depth stop next (d.add [{ kind := .other "html_inline" }])
        | .bareUrl url shown =>
          draftFrom s depth stop next
            (d.add [{ kind := .linkOpen, target := url }, textToken shown, { kind := .linkClose }])
        | .link first last url title =>
          let inside ←
            if _ : i < first ∧ last ≤ stop then draftFrom s (depth + 1) last first {} else pure {}
          draftFrom s depth stop next
            (d.add ({ kind := .linkOpen, target := url, title := titleOf title } :: inside.tokens ++
              [{ kind := .linkClose }]))
        | .image first last url title =>
          let children :=
            if _ : min last s.chars.size - first < stop - i then
              tokensOf ⟨s.chars.extract first last, s.references⟩
            else []
          draftFrom s depth stop next
            (d.add [{ kind := .image, target := url, title := titleOf title, children }])
  else return d
termination_by (stop - i, 0)

/-- The tokens of a whole text. -/
def tokensOf (s : Source) : List Token :=
  withoutSpecials (Id.run ((draftFrom s 0 s.chars.size 0 {}).run ∅)).1.tokens
termination_by (s.chars.size, 1)

end

/-- The tokens of the text of a block. -/
def inlineTokens (references : References) (text : List Char) : List Token :=
  tokensOf ⟨text.toArray, references⟩

end Folio.Markdown
