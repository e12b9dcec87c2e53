import Folio.Proofs.Folding
import Folio.Proofs.Part
import Folio.Render.Document

/-!
# What a tree can do without

A tree is pruned by deleting what is unknown, putting the content of links without a target in their
place, and deleting emphasis that nothing is left of, at every depth from the inside out (`prunedOf`,
`prunedBlocks`). Nothing tells pruned inline content from what it was (`interchangeable_prunedOf`), so a
part of a text is written the same when its content is pruned (`Part.write_pruned`). The parts of pruned
blocks are those of the blocks, pruned one by one (`partsOf_prunedBlocks`), as long as no list item
comes to start with a paragraph that it did not start with (`allOpen`). So a pruned tree is built the
same as the tree it was (`pruning_keeps_meaning`). The log is compared without debugging records of
what is skipped as unknown, which are not modelled: a pruned tree would have none of them.
-/

set_option autoImplicit false
set_option relaxedAutoImplicit false

namespace Folio

/-! ### Pruning a tree -/

/-- Emphasis around children, if there are any. -/
def emphasisAround (delimiters : Int) : List Inline → List Inline
  | [] => []
  | x :: xs => [.emphasis delimiters (x :: xs)]

mutual

/-- What a piece of inline content is pruned to, from the inside out. -/
def Inline.pruned : Inline → List Inline
  | .emphasis n children => emphasisAround n (prunedOf children)
  | .link url title children =>
    if isBlankText url then prunedOf children else [.link url title (prunedOf children)]
  | .image url title alt => [.image url title (prunedOf alt)]
  | .text content => [.text content]
  | .code content => [.code content]
  | .lineBreak => [.lineBreak]
  | .unknown => []

/-- Inline content pruned at every depth. -/
def prunedOf : List Inline → List Inline
  | [] => []
  | x :: xs => x.pruned ++ prunedOf xs

end

/-- A row of a table with the contents of its cells pruned. -/
def TableRow.pruned (row : TableRow) : TableRow := { row with cells := row.cells.map prunedOf }

mutual

/-- What a block is pruned to. -/
def Block.pruned : Block → List Block
  | .heading level content => [.heading level (prunedOf content)]
  | .paragraph content => [.paragraph (prunedOf content)]
  | .list ordered items => [.list ordered (prunedItems items)]
  | .code lines => [.code lines]
  | .quote blocks => [.quote (prunedBlocks blocks)]
  | .rule => [.rule]
  | .table rows => [.table (rows.map TableRow.pruned)]
  | .unknown => []

/-- Blocks pruned at every depth. -/
def prunedBlocks : List Block → List Block
  | [] => []
  | b :: bs => b.pruned ++ prunedBlocks bs

/-- List items with their blocks pruned. -/
def prunedItems : List (List Block) → List (List Block)
  | [] => []
  | item :: items => prunedBlocks item :: prunedItems items

end

/-! ### Inline content -/

namespace Interchangeable

/-- What is unknown is not there. -/
theorem unknown : Interchangeable [] [.unknown] where
  plainText := by simp [Inline.plainText]
  visible := by simp [Inline.isVisible]
  runs env attached style := by simp [writeRuns, writeRun]
  items env style := by
    simp only [writeItems, writeItem, writeRun, Step.bind_done]
    rfl

/-- Emphasis around nothing is nothing. -/
theorem emptyEmphasis (n : Int) : Interchangeable [] [.emphasis n []] where
  plainText := by simp [Inline.plainText]
  visible := by simp [Inline.isVisible]
  runs env attached style := by simp [writeRuns, writeRun]
  items env style := by simp [writeItems, writeItem]

theorem emphasisAround (n : Int) (xs : List Inline) :
    Interchangeable (emphasisAround n xs) [.emphasis n xs] := by
  rcases xs with _ | ⟨x, xs⟩
  · exact emptyEmphasis n
  · exact .refl _

/-- A link without a target is its content. -/
theorem blankLink {url : String} (hurl : isBlankText url = true) (title : Option String)
    (xs : List Inline) : Interchangeable xs [.link url title xs] where
  plainText := by simp [Inline.plainText]
  visible := by simp [Inline.isVisible]
  runs env attached style := by simp [writeRuns, writeRun, hurl]
  items env style := by simp [writeItems, writeItem, hurl]

end Interchangeable

mutual

/-- Nothing tells what a piece of inline content is pruned to from the piece. -/
theorem Inline.interchangeable_pruned : ∀ x : Inline, Interchangeable x.pruned [x]
  | .emphasis n children =>
    (Interchangeable.emphasisAround n _).trans ((interchangeable_prunedOf children).emphasis n)
  | .link url title children => by
    have hchildren := interchangeable_prunedOf children
    rw [Inline.pruned]
    split
    · next hurl => exact hchildren.trans (.blankLink hurl title children)
    · exact hchildren.link url title
  | .image url title alt => (interchangeable_prunedOf alt).image url title
  | .text _ => .refl _
  | .code _ => .refl _
  | .lineBreak => .refl _
  | .unknown => .unknown

/-- Nothing tells pruned inline content from what it was. -/
theorem interchangeable_prunedOf : ∀ xs : List Inline, Interchangeable (prunedOf xs) xs
  | [] => .refl _
  | x :: xs => (Inline.interchangeable_pruned x).append (interchangeable_prunedOf xs)

end

/-! ### Parts of a text -/

/-- A passage with its content pruned. -/
def Passage.pruned : Passage → Passage
  | .heading level content => .heading level (prunedOf content)
  | .paragraph content => .paragraph (prunedOf content)
  | .itemStart level mark content => .itemStart level mark (prunedOf content)
  | .quoted content => .quoted (prunedOf content)
  | .cell header content => .cell header (prunedOf content)
  | .codeLine first last line => .codeLine first last line
  | .rule => .rule
  | .spacer => .spacer

/-- A part of a text with its content pruned. -/
def Part.pruned : Part → Part
  | .passage p => .passage p.pruned
  | .table rows => .table (rows.map TableRow.pruned)

section Writing

variable {env : Surroundings}

theorem forEach_segmentsOf_prunedOf (content : List Inline) (style : RunStyle) :
    Step.forEach (Segment.write env) (segmentsOf env.settings (prunedOf content) style) =
      Step.forEach (Segment.write env) (segmentsOf env.settings content style) := by
  rw [← writeItems_eq, ← writeItems_eq, (interchangeable_prunedOf content).items]

theorem Passage.write_pruned (p : Passage) : p.pruned.write env = p.write env := by
  have hformat : p.pruned.format env.settings = p.format env.settings := by cases p <;> rfl
  have hsegments : Step.forEach (Segment.write env) (p.pruned.segments env.settings) =
      Step.forEach (Segment.write env) (p.segments env.settings) := by
    cases p with
    | itemStart level mark content =>
      simp only [Passage.pruned, Passage.segments, Step.forEach_cons, forEach_segmentsOf_prunedOf]
    | heading | paragraph | quoted | cell => exact forEach_segmentsOf_prunedOf _ _
    | _ => rfl
  rw [Passage.write, Passage.write, hformat, hsegments]

theorem writeCells_pruned (header : Bool) (cells : List Word.Cell) (contents : List (List Inline)) :
    writeCells env header cells (contents.map prunedOf) = writeCells env header cells contents := by
  induction cells generalizing contents with
  | nil => rfl
  | cons cell cells ih =>
    have hcontent : (contents.map prunedOf).headD [] = prunedOf (contents.headD []) := by
      cases contents <;> rfl
    have hcell : writeCell env header (prunedOf (contents.headD [])) cell =
        writeCell env header (contents.headD []) cell := by
      unfold writeCell
      rw [(interchangeable_prunedOf _).items]
    rw [writeCells, writeCells, hcontent, hcell, ← List.map_tail, ih]

theorem writeRows_pruned (table : List (List Word.Cell)) (rows : List TableRow) :
    writeRows env table (rows.map TableRow.pruned) = writeRows env table rows := by
  induction table generalizing rows with
  | nil => rfl
  | cons cells table ih =>
    cases rows with
    | nil => rfl
    | cons row rows =>
      simp only [List.map_cons, writeRows, ih, TableRow.pruned, writeCells_pruned]

/-- Pruning keeps the size of a table. -/
theorem emptyTable_pruned (rows : List TableRow) :
    emptyTable (rows.map TableRow.pruned) = emptyTable rows := by
  have hcolumns : columnCount (rows.map TableRow.pruned) = columnCount rows := by
    simp [columnCount, Function.comp_def, TableRow.pruned]
  rw [emptyTable, emptyTable, hcolumns, List.length_map]

/-- A part of a text is written the same when its content is pruned. -/
theorem Part.write_pruned (p : Part) : p.pruned.write env = p.write env := by
  cases p with
  | passage p => rw [Part.pruned, Part.write, Part.write, p.write_pruned]
  | table rows =>
    rw [Part.pruned, Part.write, Part.write, emptyTable_pruned, writeRows_pruned]

theorem writeParts_pruned (ps : List Part) :
    writeParts env (ps.map Part.pruned) = writeParts env ps := by
  rw [writeParts, Step.forEach_map, writeParts]
  exact congrArg (Step.forEach · ps) (funext Part.write_pruned)

end Writing

/-! ### Items that start with a paragraph -/

/-- Whether a block is of a known kind. -/
def Block.isKnown : Block → Bool
  | .unknown => false
  | _ => true

/-- Whether the first of some blocks is a paragraph. -/
def startsWithParagraph : List Block → Bool
  | .paragraph _ :: _ => true
  | _ => false

/-- Whether an unknown block stands before the first known block, and that is a paragraph. -/
def hidesParagraph (item : List Block) : Bool :=
  !startsWithParagraph item && startsWithParagraph (item.filter Block.isKnown)

mutual

/-- Whether no item of a list in a block hides a paragraph, at any depth. -/
def Block.isOpen : Block → Bool
  | .list _ items => allItemsOpen items
  | .quote blocks => allOpen blocks
  | .heading _ _ | .paragraph _ | .code _ | .rule | .table _ | .unknown => true

/-- Whether no item of a list in blocks hides a paragraph. -/
def allOpen : List Block → Bool
  | [] => true
  | b :: bs => b.isOpen && allOpen bs

/-- Whether no item hides a paragraph, and no item of a list in it. -/
def allItemsOpen : List (List Block) → Bool
  | [] => true
  | item :: items => !hidesParagraph item && allOpen item && allItemsOpen items

end

theorem startsWithParagraph_prunedBlocks (bs : List Block) :
    startsWithParagraph (prunedBlocks bs) = startsWithParagraph (bs.filter Block.isKnown) := by
  induction bs with
  | nil => rfl
  | cons b bs ih =>
    cases b with
    | unknown => exact ih
    | _ => rfl

/-- An item that hides no paragraph starts with one exactly if it does when it is pruned. -/
theorem startsWithParagraph_of_not_hides {item : List Block} (h : hidesParagraph item = false) :
    startsWithParagraph (prunedBlocks item) = startsWithParagraph item := by
  rw [startsWithParagraph_prunedBlocks]
  rcases hstart : startsWithParagraph item with _ | _
  · simpa [hidesParagraph, hstart] using h
  · unfold startsWithParagraph at hstart
    split at hstart
    · rfl
    · cases hstart

/-! ### The parts of pruned blocks -/

theorem partsOf_append (level : Int) (bs cs : List Block) :
    partsOf level (bs ++ cs) = partsOf level bs ++ partsOf level cs := by
  induction bs with
  | nil => rfl
  | cons b bs ih => rw [List.cons_append, partsOf, partsOf, ih, List.append_assoc]

/-- An item that starts with no paragraph starts with its mark alone. -/
theorem itemParts_of_not_startsWithParagraph {item : List Block}
    (h : startsWithParagraph item = false) (level : Int) (mark : String) :
    itemParts level mark item =
      .passage (.itemStart level mark []) :: partsOf (level + 1) item := by
  rcases item with _ | ⟨b, bs⟩
  · rfl
  · cases b with
    | paragraph content => cases h
    | _ => rfl

/-- The parts of a pruned list item, if those of its blocks are as they should be. -/
theorem itemParts_prunedBlocks {level : Int} {item : List Block}
    (hhides : hidesParagraph item = false)
    (hparts : partsOf (level + 1) (prunedBlocks item) =
      (partsOf (level + 1) item).map Part.pruned) (mark : String) :
    itemParts level mark (prunedBlocks item) = (itemParts level mark item).map Part.pruned := by
  have hpruned := startsWithParagraph_of_not_hides hhides
  rcases hstart : startsWithParagraph item with _ | _
  · rw [hstart] at hpruned
    rw [itemParts_of_not_startsWithParagraph hpruned, itemParts_of_not_startsWithParagraph hstart,
      List.map_cons, hparts]
    rfl
  · unfold startsWithParagraph at hstart
    split at hstart
    · exact congrArg (_ :: ·) (List.cons.inj hparts).2
    · cases hstart

theorem tableParts_pruned (rows : List TableRow) :
    tableParts (rows.map TableRow.pruned) = (tableParts rows).map Part.pruned := by
  rcases rows with _ | ⟨row, rows⟩ <;> rfl

/-- There is nothing to prune in code. -/
theorem codePassages_pruned (first : Bool) (lines : List String) :
    (codePassages first lines).map Passage.pruned = codePassages first lines := by
  induction lines generalizing first with
  | nil => rfl
  | cons line lines ih => rw [codePassages, List.map_cons, ih, Passage.pruned]

mutual

/-- The parts of what a block is pruned to. -/
theorem Block.partsOf_pruned (level : Int) : ∀ {b : Block}, b.isOpen = true →
    partsOf level b.pruned = (b.parts level).map Part.pruned
  | .heading n content, _ => rfl
  | .paragraph content, _ => rfl
  | .list ordered items, h => by
    rw [Block.isOpen] at h
    rw [Block.pruned, partsOf, Block.parts, Block.parts, partsOf, List.append_nil]
    exact listParts_prunedItems level ordered 1 h
  | .table rows, _ => by
    rw [Block.pruned, partsOf, Block.parts, Block.parts, partsOf, List.append_nil,
      tableParts_pruned]
  | .code lines, _ => by
    have hmap (ps : List Passage) : (ps.map Part.passage).map Part.pruned =
        (ps.map Passage.pruned).map Part.passage := by
      simp [Function.comp_def, Part.pruned]
    rw [Block.pruned, partsOf, Block.parts, partsOf, List.append_nil, hmap, codePassages_pruned]
  | .quote blocks, h => by
    rw [Block.isOpen] at h
    rw [Block.pruned, partsOf, Block.parts, Block.parts, partsOf, List.append_nil]
    exact quoteParts_prunedBlocks level h
  | .rule, _ => rfl
  | .unknown, _ => rfl

/-- The parts of pruned blocks are those of the blocks, pruned. -/
theorem partsOf_prunedBlocks (level : Int) : ∀ {bs : List Block}, allOpen bs = true →
    partsOf level (prunedBlocks bs) = (partsOf level bs).map Part.pruned
  | [], _ => rfl
  | b :: bs, h => by
    rw [allOpen, Bool.and_eq_true] at h
    rw [prunedBlocks, partsOf_append, Block.partsOf_pruned level h.1,
      partsOf_prunedBlocks level h.2, partsOf, List.map_append]

/-- The parts of a quote of pruned blocks. -/
theorem quoteParts_prunedBlocks (level : Int) : ∀ {bs : List Block}, allOpen bs = true →
    quoteParts level (prunedBlocks bs) = (quoteParts level bs).map Part.pruned
  | [], _ => rfl
  | b :: bs, h => by
    rw [allOpen, Bool.and_eq_true] at h
    have hblock := Block.partsOf_pruned level h.1
    have hrest := quoteParts_prunedBlocks level h.2
    cases b with
    | paragraph content => exact congrArg (_ :: ·) hrest
    | _ => simpa [prunedBlocks, Block.pruned, quoteParts, partsOf, hrest] using hblock

/-- The parts of pruned list items. -/
theorem listParts_prunedItems (level : Int) (ordered : Bool) (number : Nat) :
    ∀ {items : List (List Block)}, allItemsOpen items = true →
      listParts ordered level number (prunedItems items) =
        (listParts ordered level number items).map Part.pruned
  | [], _ => rfl
  | item :: items, h => by
    simp only [allItemsOpen, Bool.and_eq_true, Bool.not_eq_true'] at h
    have hitem := partsOf_prunedBlocks (level + 1) h.1.2
    rw [prunedItems, listParts, itemParts_prunedBlocks h.1.1 hitem,
      listParts_prunedItems level ordered (number + 1) h.2, listParts, List.map_append]

end

/-! ### Building pruned trees -/

/-- Pruned blocks are written the same as the blocks they were, from every state. -/
theorem writeBlocks_prunedBlocks (env : Surroundings) {bs : List Block} (h : allOpen bs = true) :
    writeBlocks env (prunedBlocks bs) = writeBlocks env bs := by
  funext s
  rw [writeBlocks_eq, writeBlocks_eq, partsOf_prunedBlocks _ h, writeParts_pruned]

/-- A tree in which no list item hides a paragraph behind unknown blocks is built the same when it is
pruned: with the same body and relationships or the same failure, and with the same images and
requests behind it, whatever the settings, files and hosts are. The log is the same as well, but for
the records of what is skipped as unknown, which it leaves out. So the tree is rendered the same. -/
theorem pruning_keeps_meaning (env : Surroundings) {blocks : List Block}
    (h : allOpen blocks = true) :
    build env (prunedBlocks blocks) = build env blocks ∧
      render env (prunedBlocks blocks) = render env blocks := by
  have hbuild : build env (prunedBlocks blocks) = build env blocks := by
    unfold build
    rw [writeBlocks_prunedBlocks env h]
  refine ⟨hbuild, ?_⟩
  unfold render
  rw [hbuild]

/-- A list item with a blank link around what is unknown, and a quote with emphasis around it. -/
def strewnTree : List Block :=
  [.unknown,
    .list false
      [[.paragraph [.link " " none [.text "a", .unknown], .link "u" none [.unknown]], .unknown]],
    .quote [.unknown, .paragraph [.emphasis 1 [.link "" none [.unknown]], .image "" none [.unknown]]]]

theorem pruning_keeps_meaning_strewnTree :
    allOpen strewnTree = true ∧
    prunedBlocks strewnTree =
      [.list false [[.paragraph [.text "a", .link "u" none []]]],
        .quote [.paragraph [.image "" none []]]] ∧
    render {} [.list false [[.paragraph [.text "a", .link "u" none []]]],
      .quote [.paragraph [.image "" none []]]] = render {} strewnTree := by
  have hopen : allOpen strewnTree = true := rfl
  exact ⟨hopen, rfl, (pruning_keeps_meaning {} hopen).2⟩

end Folio
