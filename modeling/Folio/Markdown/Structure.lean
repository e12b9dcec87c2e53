import Folio.Markdown.Definition

/-!
# The structure of a text

Reading the blocks of a text from its lines. Quotes and list items hold blocks, which are read in a
region of their own (`Region.quote?`, `Region.item`); all other blocks are leaves. Definitions of
references leave no tokens, and the first definition of a label counts.
-/

set_option autoImplicit false
set_option relaxedAutoImplicit false

namespace Folio.Markdown

/-- Reading blocks keeps the references that have been defined so far. -/
abbrev BlockReader := StateT References (Except TextFault)

namespace Region

/-! ### Paragraphs -/

/-- The number of the line behind a paragraph, from a line on. A line that is indented like code, or
that continues a paragraph, cannot end it. -/
def paragraphEnd (r : Region) (i : Nat) : Nat :=
  if i < r.limit then
    if (r.line i).isEmpty then i
    else if r.isCode i || (r.line i).column < 0 || !r.endsParagraph i r.limit then
      paragraphEnd r (i + 1)
    else i
  else i
termination_by r.limit - i

/-- The text of a paragraph in some lines. -/
def paragraphText (r : Region) (i next : Nat) : List Char :=
  withoutGaps (linesText r.margin false (r.between i next))

/-- A paragraph. -/
def paragraph (r : Region) (i : Nat) : Leaf :=
  let next := r.paragraphEnd (i + 1)
  ⟨[{ kind := .paragraphOpen }, contentToken (r.paragraphText i next), { kind := .paragraphClose }],
    next⟩

/-- The level of the heading that a text underlines. -/
def underlineLevel? : List Char → Option Nat
  | [] => none
  | c :: cs =>
    if (c = '-' || c = '=') && (cs.dropWhile (· = c)).all isIndent then
      some (if c = '=' then 1 else 2)
    else none

/-- The number of the line that underlines a heading, from a line on, and the level of the heading. -/
def underline? (r : Region) (stop i : Nat) : Option (Nat × Nat) :=
  if i < stop then
    let l := r.line i
    if l.isEmpty then none
    else if r.isCode i then underline? r stop (i + 1)
    else
      match if r.margin ≤ l.column then underlineLevel? l.body else none with
      | some level => some (i, level)
      | none =>
        if l.column < 0 || !r.endsParagraph i stop then underline? r stop (i + 1) else none
  else none
termination_by stop - i

/-- A heading whose last line is an underline. -/
def underlined? (r : Region) (i stop : Nat) : Option Leaf :=
  (r.underline? stop (i + 1)).map fun (last, level) =>
    ⟨headingTokens level (r.paragraphText i last), last + 1⟩

/-! ### Regions in blocks -/

/-- The lines of a quote from a line on, as the quote sees them, the number of the line behind it,
and whether the start of another block ends it there. A line without a mark belongs to the quote as
long as the line before is not empty. -/
def quoteLines (r : Region) (stop : Nat) (lines : Array Line) (behindEmpty : Bool) (i : Nat) :
    Array Line × Nat × Bool :=
  if i < stop then
    let l := r.line i
    if l.isEmpty then (lines, i, false)
    else
      match if r.isOutside i then none else l.quoted? with
      | some q => quoteLines r stop (lines.setIfInBounds i q) q.isEmpty (i + 1)
      | none =>
        if behindEmpty then (lines, i, false)
        else if r.endsQuote i then (lines, i, true)
        else quoteLines r stop (lines.setIfInBounds i l.lazy) false (i + 1)
  else (lines, i, false)
termination_by stop - i

/-- The region of a quote that starts at a line, and the number of the line behind it. -/
def quote? (r : Region) (i stop : Nat) : Option (Region × Nat) :=
  if r.isCode i then none
  else
    (r.line i).quoted?.map fun q =>
      let (lines, last, ended) := r.quoteLines stop (r.lines.setIfInBounds i q) q.isEmpty (i + 1)
      ({ r with lines, margin := 0, limit := if ended then last else r.limit }, last)

/-- The region of a list item whose mark stands at a line, and whether that line holds nothing else.
The content starts behind the spaces after the mark; if there are more than four of them or nothing
else, it starts one column behind the mark. -/
def item (r : Region) (mark : ListMark) (i : Nat) : Region × Bool :=
  let l := r.line i
  let start := l.column + mark.width
  let rest := l.body.drop mark.width
  let gap := rest.takeWhile isIndent
  let column := gap.foldl (Line.advance l.base) start
  let body := rest.dropWhile isIndent
  let width := if body.isEmpty || 4 < column - start then 1 else column - start
  let line : Line := { l with lead := l.lead ++ l.body.take mark.width ++ gap, body, column }
  ({ r with
      lines := r.lines.setIfInBounds i line, margin := start + width, listMargin := r.margin },
    body.isEmpty)

/-- The mark of the next item of a list, if a line continues the list. -/
def nextMark? (r : Region) (mark : ListMark) (i : Nat) : Option ListMark :=
  if r.isOutside i || r.isCode i || r.endsList i then none
  else
    let body := (r.line i).body
    (if mark.number.isSome then ListMark.numbered? body else ListMark.bullet? body).filter
      (·.sign = mark.sign)

/-- The number of the first line with a body, from a line on. -/
def skipEmpty (r : Region) (i : Nat) : Nat :=
  if i < r.limit then if (r.line i).isEmpty then skipEmpty r (i + 1) else i else i
termination_by r.limit - i

theorem le_skipEmpty (r : Region) (i : Nat) : i ≤ r.skipEmpty i := by
  fun_induction skipEmpty r i <;> omega

/-- The leaf at a line that no other block starts at. -/
def textLeaf (r : Region) (i stop : Nat) : Leaf :=
  ((r.heading? i).or (r.underlined? i stop)).getD (r.paragraph i)

/-- The line at which reading goes on after a block at line `i`: the line behind it, or the next if
that line is empty. -/
def behind (r : Region) (stop i next : Nat) : Nat :=
  if max next (i + 1) < stop && (r.line (max next (i + 1))).isEmpty then max next (i + 1) + 1
  else max next (i + 1)

theorem lt_behind (r : Region) (stop i next : Nat) : i < r.behind stop i next := by
  unfold behind; split <;> omega

mutual

/-- The blocks from a line on up to `stop`, at some depth of blocks. -/
def blocks (depth : Nat) (r : Region) (i stop : Nat) : BlockReader Leaf := do
  have _hi := r.le_skipEmpty i
  if stop ≤ r.skipEmpty i || r.isOutside (r.skipEmpty i) then return ⟨[], r.skipEmpty i⟩
  else if h : mostNested ≤ depth then return ⟨[], stop⟩
  else
    let found ← block depth (Nat.lt_of_not_le h) r (r.skipEmpty i) stop
    have _hn := r.lt_behind stop (r.skipEmpty i) found.next
    if _ : r.behind stop (r.skipEmpty i) found.next < stop then do
      let rest ← blocks depth r (r.behind stop (r.skipEmpty i) found.next) stop
      return ⟨found.tokens ++ rest.tokens, rest.next⟩
    else return ⟨found.tokens, r.behind stop (r.skipEmpty i) found.next⟩
termination_by (mostNested - depth, 3 * (stop - i) + 2)

/-- The block at a line. -/
def block (depth : Nat) (h : depth < mostNested) (r : Region) (i stop : Nat) :
    BlockReader Leaf := do
  if let some leaf ← (r.table? i stop : Except TextFault (Option Leaf)) then return leaf
  if let some leaf := (r.indented? i stop).or (r.fenced? i stop) then return leaf
  if let some (inner, last) := r.quote? i stop then
    let content ← blocks (depth + 1) inner i last
    return ⟨{ kind := .quoteOpen } :: content.tokens ++ [{ kind := .quoteClose }], content.next⟩
  if let some leaf := r.rule? i then return leaf
  if let some mark := r.listMark? false i then
    let ordered := mark.number.isSome
    let content ← items depth h r stop mark i
    return ⟨{ kind := if ordered then .orderedListOpen else .bulletListOpen } :: content.tokens ++
      [{ kind := if ordered then .orderedListClose else .bulletListClose }], content.next⟩
  if let some (key, reference, next) := r.definition? i then
    modify fun known => if (known.lookup key).isSome then known else known ++ [(key, reference)]
    return ⟨[], next⟩
  if let some leaf ← (r.html? i stop : Except TextFault (Option Leaf)) then return leaf
  return r.textLeaf i stop
termination_by (mostNested - depth, 3 * (stop - i) + 1)

/-- The items of a list from a line on. -/
def items (depth : Nat) (h : depth < mostNested) (r : Region) (stop : Nat) (mark : ListMark)
    (i : Nat) : BlockReader Leaf := do
  let (inner, isBare) := r.item mark i
  let content ←
    if isBare && (r.line (i + 1)).isEmpty then pure ⟨[], min (i + 2) stop⟩
    else blocks (depth + 2) inner i stop
  let tokens := { kind := .itemOpen } :: content.tokens ++ [{ kind := .itemClose }]
  if _ : i < content.next ∧ content.next < stop then
    match r.nextMark? mark content.next with
    | some mark => do
      let rest ← items depth h r stop mark content.next
      return ⟨tokens ++ rest.tokens, rest.next⟩
    | none => return ⟨tokens, content.next⟩
  else return ⟨tokens, content.next⟩
termination_by (mostNested - depth, 3 * (stop - i))

end

end Region

/-- The tokens of the blocks of a text, with inline content still to be read, and the references. -/
def blockTokens (text : List Char) : Except TextFault (List Token × References) :=
  let lines := (linesOf text).toArray
  let region : Region := { lines, limit := lines.size }
  ((region.blocks 0 0 lines.size).run []).map fun (leaf, references) => (leaf.tokens, references)

end Folio.Markdown
