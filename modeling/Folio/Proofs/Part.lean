import Folio.Proofs.Passage

/-!
# Blocks as sequences of parts

A block becomes elements of the body, one for each of its parts: a part is a passage, which becomes
a paragraph, or a table (`Part`, `Block.parts`). Writing a block is writing its parts one after the
other, at the depth of lists at which it stands (`writeBlock_eq`, `writeBlocks_eq`). So what is true
of every passage and every table is true of all that blocks are written as.
-/

set_option autoImplicit false
set_option relaxedAutoImplicit false

namespace Folio

open Word

/-! ### Parts -/

/-- What becomes an element of the body. -/
inductive Part
  | passage (content : Passage)
  | table (rows : List TableRow)

/-- The table that the cells of rows are written into. -/
def emptyTable (rows : List TableRow) : Table :=
  (Table.setGrid "auto"
    ((Table.ofSize rows.length (columnCount rows)).withStyle "TableGrid")).1

/-- Writes a part as an element. -/
def Part.write (env : Surroundings) : Part → Step Element Unit
  | .passage p => (p.write env).mapWritten .paragraph
  | .table rows =>
    (writeRows env (emptyTable rows).rows rows).gather fun filled ↦
      .table { emptyTable rows with rows := filled }

/-- The parts of a table: the table, and the empty paragraph behind it. -/
def tableParts (rows : List TableRow) : List Part :=
  if rows.isEmpty then [] else [.table rows, .passage .spacer]

mutual

/-- The parts of a block; list items in it start at a level. -/
def Block.parts (level : Int) : Block → List Part
  | .heading n content => [.passage (.heading n content)]
  | .paragraph content => [.passage (.paragraph content)]
  | .list ordered items => listParts ordered level 1 items
  | .table rows => tableParts rows
  | .code lines => (codePassages true (if lines.isEmpty then [""] else lines)).map .passage
  | .quote blocks => quoteParts level blocks
  | .rule => [.passage .rule]
  | .unknown => []

/-- The parts of blocks. -/
def partsOf (level : Int) : List Block → List Part
  | [] => []
  | b :: bs => b.parts level ++ partsOf level bs

/-- The parts of the blocks of a quote. -/
def quoteParts (level : Int) : List Block → List Part
  | [] => []
  | .paragraph content :: bs => .passage (.quoted content) :: quoteParts level bs
  | b :: bs => b.parts level ++ quoteParts level bs

/-- The parts of a list item. -/
def itemParts (level : Int) (mark : String) : List Block → List Part
  | .paragraph content :: rest =>
    .passage (.itemStart level mark content) :: partsOf (level + 1) rest
  | b :: rest =>
    .passage (.itemStart level mark []) :: (b.parts (level + 1) ++ partsOf (level + 1) rest)
  | [] => [.passage (.itemStart level mark [])]

/-- The parts of the items of a list, from a number on. -/
def listParts (ordered : Bool) (level : Int) (number : Nat) : List (List Block) → List Part
  | [] => []
  | item :: items =>
    itemParts level (itemMark ordered number) item ++ listParts ordered level (number + 1) items

end

/-- Writes parts one after the other. -/
def writeParts (env : Surroundings) (ps : List Part) : Step Element Unit :=
  Step.forEach (Part.write env) ps

section Parts

variable {env : Surroundings}

theorem writeParts_append (ps qs : List Part) :
    writeParts env (ps ++ qs) = (writeParts env ps).bind fun _ ↦ writeParts env qs :=
  Step.forEach_append _ ps qs

theorem writeParts_singleton (p : Part) : writeParts env [p] = p.write env :=
  Step.forEach_singleton _ p

/-! ### The depth of lists -/

theorem ignoresDepth_writeCell (header : Bool) (content : List Inline) (cell : Cell) :
    (writeCell env header content cell).IgnoresDepth := by
  have hcontent : (writeItems env content (if header then .ofHeader else .plain)).IgnoresDepth := by
    rw [writeItems_eq]
    exact Step.ignoresDepth_forEach (Segment.ignoresDepth_write env) _
  intro s n
  unfold writeCell
  rcases Change.when header (Cell.addShade env.settings.headerShade) cell with ⟨c, _ | e⟩
  · exact hcontent.gather _ s n
  · rfl

theorem ignoresDepth_writeCells (header : Bool) (cells : List Cell)
    (contents : List (List Inline)) : (writeCells env header cells contents).IgnoresDepth := by
  induction cells generalizing contents with
  | nil => exact Step.ignoresDepth_done ()
  | cons cell cells ih =>
    exact ((ignoresDepth_writeCell header _ cell).leaving cells).bind fun _ ↦ ih contents.tail

theorem ignoresDepth_writeRows (table : List (List Cell)) (rows : List TableRow) :
    (writeRows env table rows).IgnoresDepth := by
  induction table generalizing rows with
  | nil => exact Step.ignoresDepth_done ()
  | cons cells table ih =>
    cases rows with
    | nil => exact Step.IgnoresDepth.bind (fun _ _ ↦ rfl) fun _ ↦ ih []
    | cons row rows =>
      exact (((ignoresDepth_writeCells row.header cells row.cells).gather id).leaving table).bind
        fun _ ↦ ih rows

/-- Writing a part does not look at the depth of lists. -/
theorem Part.ignoresDepth_write (p : Part) : (p.write env).IgnoresDepth := by
  cases p with
  | passage p => exact (p.ignoresDepth_write env).mapWritten _
  | table rows =>
    rw [Part.write]
    exact (ignoresDepth_writeRows _ rows).gather _

theorem ignoresDepth_writeParts (ps : List Part) : (writeParts env ps).IgnoresDepth :=
  Step.ignoresDepth_forEach Part.ignoresDepth_write ps

/-- From the states at a depth of lists, a step does what parts do. -/
def Step.WritesParts (env : Surroundings) (depth : Int) (step : Step Element Unit)
    (ps : List Part) : Prop :=
  ∀ s : RenderState, s.listDepth = depth → step s = writeParts env ps s

namespace Step.WritesParts

variable {depth : Int}

/-- Steps that do what parts do in sequence do what all the parts do. -/
theorem append {a b : Step Element Unit} {ps qs : List Part} (ha : a.WritesParts env depth ps)
    (hb : b.WritesParts env depth qs) : (a.bind fun _ ↦ b).WritesParts env depth (ps ++ qs) := by
  intro s hs
  have hafter : (writeParts env ps s).state.listDepth = depth := by
    rw [(ignoresDepth_writeParts ps).listDepth_eq, hs]
  rw [writeParts_append]
  rcases hresult : (writeParts env ps s).result with e | ⟨⟩
  · have hfail : (a s).result = .error e := by rw [ha s hs, hresult]
    rw [bind_of_error hresult, bind_of_error hfail, ha s hs]
  · have hok : (a s).result = .ok () := by rw [ha s hs, hresult]
    rw [bind_of_ok hresult, bind_of_ok hok, ha s hs, hb _ hafter]

/-- A step one level deeper does what the parts do there, and comes back. -/
theorem deeper {step : Step Element Unit} {ps : List Part}
    (h : step.WritesParts env (depth + 1) ps) : (deeper step).WritesParts env depth ps := by
  intro s hs
  have hdown : ({ s with listDepth := s.listDepth + 1 } : RenderState) = s.atDepth (depth + 1) := by
    rw [hs]
    rfl
  have hback : (writeParts env ps s).state.atDepth (depth + 1 - 1) =
      (writeParts env ps s).state := by
    rw [Int.add_sub_cancel, ← hs, ← (ignoresDepth_writeParts ps).listDepth_eq s]
    rfl
  unfold Folio.deeper
  rw [hdown, h _ rfl, ignoresDepth_writeParts ps s (depth + 1)]
  exact congrArg (fun t ↦ (⟨_, t, _⟩ : Outcome Element Unit)) hback

end Step.WritesParts

/-! ### Writing blocks -/

section Blocks

variable {depth : Int}

/-- A paragraph of the body is a part. -/
theorem writeParagraph_parts (p : Passage) :
    (writeParagraph (p.format env.settings)
      (Step.forEach (Segment.write env) (p.segments env.settings))).WritesParts env depth
        [.passage p] := by
  intro s _
  rw [writeParts_singleton, Part.write]
  unfold writeParagraph Passage.write writeFormatted Step.mapWritten
  rcases p.format env.settings Paragraph.empty with ⟨q, _ | e⟩
  · rfl
  · rfl

theorem writePlain_parts (content : List Inline) :
    (writeParagraph noFormat (writeItems env content .plain)).WritesParts env depth
      [.passage (.paragraph content)] := by
  rw [writeItems_eq]
  exact writeParagraph_parts (.paragraph content)

theorem writeItemStart_parts (level : Int) (mark : String) (content : List Inline) :
    (writeItemStart env level mark content).WritesParts env depth
      [.passage (.itemStart level mark content)] := by
  have hcontent : ((inParagraph (writeText env mark .plain)).bind fun _ ↦
      writeItems env content .plain) = Step.forEach (Segment.write env)
        ((Passage.itemStart level mark content).segments env.settings) := by
    rw [writeItems_eq]
    rfl
  rw [writeItemStart, hcontent]
  exact writeParagraph_parts (.itemStart level mark content)

theorem writeCodeLines_parts (first : Bool) (lines : List String) :
    (writeCodeLines env first lines).WritesParts env depth
      ((codePassages first lines).map .passage) := by
  induction lines generalizing first with
  | nil => exact fun _ _ ↦ rfl
  | cons line rest ih =>
    have hline : (writeCodeLine env first rest.isEmpty line).WritesParts env depth
        [.passage (.codeLine first rest.isEmpty line)] := by
      have hcontent : (if line = "" then Step.done ()
          else inParagraph (writeText env line .ofCodeLine)) = Step.forEach (Segment.write env)
            ((Passage.codeLine first rest.isEmpty line).segments env.settings) := by
        rw [Passage.segments]
        split
        · rfl
        · rw [Step.forEach_singleton]
          rfl
      rw [writeCodeLine, hcontent]
      exact writeParagraph_parts (.codeLine first rest.isEmpty line)
    exact hline.append (ih false)

theorem writeTable_parts (rows : List TableRow) :
    (writeTable env rows).WritesParts env depth (tableParts rows) := by
  have hspacer : (Step.write (.paragraph .empty)).WritesParts env depth [.passage .spacer] :=
    writeParagraph_parts .spacer
  have htable : ((writeRows env (emptyTable rows).rows rows).gather fun filled ↦
      Element.table { emptyTable rows with rows := filled }).WritesParts env depth
        [.table rows] := by
    intro s _
    rw [writeParts_singleton, Part.write]
  rw [writeTable, tableParts]
  split
  · exact fun _ _ ↦ rfl
  · exact htable.append hspacer

mutual

/-- Writing a block is writing its parts. -/
theorem writeBlock_parts (depth : Int) : ∀ b : Block,
    (writeBlock env b).WritesParts env depth (b.parts (depth + 1))
  | .heading n content => by
    rw [writeBlock, writeItems_eq]
    exact writeParagraph_parts (.heading n content)
  | .paragraph content => by
    rw [writeBlock]
    exact writePlain_parts content
  | .list ordered items => by
    intro s hs
    have hitems := writeListItems_parts depth ordered 1 items s hs
    simpa [writeBlock, Block.parts, Step.bind, Step.read, hs] using hitems
  | .table rows => writeTable_parts rows
  | .code lines => writeCodeLines_parts true _
  | .quote blocks => writeQuote_parts depth blocks
  | .rule => writeParagraph_parts .rule
  | .unknown => fun _ _ ↦ rfl

/-- Writing blocks is writing their parts. -/
theorem writeBlocks_parts (depth : Int) : ∀ bs : List Block,
    (writeBlocks env bs).WritesParts env depth (partsOf (depth + 1) bs)
  | [] => fun _ _ ↦ rfl
  | b :: bs => (writeBlock_parts depth b).append (writeBlocks_parts depth bs)

/-- Writing the blocks of a quote is writing their parts. -/
theorem writeQuote_parts (depth : Int) : ∀ bs : List Block,
    (writeQuote env bs).WritesParts env depth (quoteParts (depth + 1) bs)
  | [] => fun _ _ ↦ rfl
  | b :: bs => by
    have hblock := writeBlock_parts depth b
    have hrest := writeQuote_parts depth bs
    cases b with
    | paragraph content =>
      have hquoted : (writeQuoted env content).WritesParts env depth
          [.passage (.quoted content)] := by
        rw [writeQuoted, writeItems_eq]
        exact writeParagraph_parts (.quoted content)
      exact hquoted.append hrest
    | _ => exact hblock.append hrest

/-- Writing a list item is writing its parts. -/
theorem writeListItem_parts (depth : Int) (mark : String) : ∀ bs : List Block,
    (writeListItem env (depth + 1) mark bs).WritesParts env depth
      (itemParts (depth + 1) mark bs)
  | [] => writeItemStart_parts (depth + 1) mark []
  | b :: rest => by
    have hblock := writeBlock_parts (depth + 1) b
    have hrest := writeBlocks_parts (depth + 1) rest
    cases b with
    | paragraph content =>
      exact (writeItemStart_parts (depth + 1) mark content).append hrest.deeper
    | _ => exact (writeItemStart_parts (depth + 1) mark []).append (hblock.append hrest).deeper

/-- Writing the items of a list is writing their parts. -/
theorem writeListItems_parts (depth : Int) (ordered : Bool) (number : Nat) :
    ∀ items : List (List Block),
      (writeListItems env ordered (depth + 1) number items).WritesParts env depth
        (listParts ordered (depth + 1) number items)
  | [] => fun _ _ ↦ rfl
  | item :: items =>
    (writeListItem_parts depth (itemMark ordered number) item).append
      (writeListItems_parts depth ordered (number + 1) items)

end

/-- Writing a block is writing its parts one after the other. -/
theorem writeBlock_eq (b : Block) (s : RenderState) :
    writeBlock env b s = writeParts env (b.parts (s.listDepth + 1)) s :=
  writeBlock_parts s.listDepth b s rfl

/-- Writing blocks is writing their parts one after the other. -/
theorem writeBlocks_eq (bs : List Block) (s : RenderState) :
    writeBlocks env bs s = writeParts env (partsOf (s.listDepth + 1) bs) s :=
  writeBlocks_parts s.listDepth bs s rfl

end Blocks

end Parts

end Folio
