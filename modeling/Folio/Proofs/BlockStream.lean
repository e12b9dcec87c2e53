import Folio.Proofs.InlineStream
import Mathlib.Data.List.SplitBy

/-!
# Streams of blocks

A text is written down as a stream of tokens (`streamOfBlocks`): blocks that hold others stand
between an opening and a closing token, the content of a heading, a paragraph or a cell is one token
between two, and the rows of a table are divided into heads and bodies. Reading the stream of an
expressible text gives the text back at any depth of nesting (`blocksOf_stream`): whatever is open
around a block, reading the stream of the block adds it there and leaves everything else as it was
(`Block.read_stream`).
-/

set_option autoImplicit false
set_option relaxedAutoImplicit false

namespace Folio

open Markdown

/-! ### Lines of code -/

/-- The content of a code block: each line and a line feed behind it. -/
def codeContent (lines : List String) : String := String.join (lines.map (· ++ "\n"))

/-- The content of a code block is its lines joined by line feeds, and one line feed more. -/
theorem toList_codeContent {lines : List String} (hne : lines ≠ []) :
    (codeContent lines).toList = joinWith '\n' (lines.map String.toList) ++ ['\n'] := by
  induction lines with
  | nil => exact absurd rfl hne
  | cons line lines ih =>
    have hcons : (codeContent (line :: lines)).toList =
        line.toList ++ '\n' :: (codeContent lines).toList := by
      simp [codeContent]
    cases lines with
    | nil => simp [codeContent, joinWith]
    | cons next lines =>
      rw [hcons, ih (List.cons_ne_nil _ _)]
      simp [joinWith]

/-- Joined pieces end as the last of them ends, if that is not empty. -/
theorem getLast?_joinWith {sep : Char} {pieces : List (List Char)} {piece : List Char}
    (hlast : pieces.getLast? = some piece) (hne : piece ≠ []) :
    (joinWith sep pieces).getLast? = piece.getLast? := by
  induction pieces with
  | nil => cases hlast
  | cons first pieces ih =>
    cases pieces with
    | nil =>
      obtain rfl : first = piece := by simpa using hlast
      rfl
    | cons next pieces =>
      have hrest := ih (by simpa using hlast)
      obtain ⟨c, hc⟩ : ∃ c, piece.getLast? = some c :=
        Option.isSome_iff_exists.mp (by simpa using hne)
      rw [joinWith, List.getLast?_append, List.getLast?_cons, hrest, hc]
      · rfl
      · exact List.cons_ne_nil _ _

/-- Line feeds at the end are dropped, and none before them. -/
theorem dropWhile_reverse_lineFeed {cs : List Char} (hend : cs.getLast? ≠ some '\n') :
    ((cs ++ ['\n']).reverse.dropWhile (· = '\n')).reverse = cs := by
  have hhead : cs.reverse.head? ≠ some '\n' := by rwa [List.head?_reverse]
  have hkept : cs.reverse.dropWhile (· = '\n') = cs.reverse := by
    cases hcs : cs.reverse with
    | nil => rfl
    | cons c rest =>
      have hc : c ≠ '\n' := by simpa [hcs] using hhead
      exact List.dropWhile_cons_of_neg (by simpa using hc)
  rw [List.reverse_concat, List.dropWhile_cons_of_pos (by simp), hkept, List.reverse_reverse]

/-- The lines of a code block are told from its content, if none of them holds a line feed and the
last one is not empty. -/
theorem codeLines_codeContent {lines : List String}
    (hlines : ∀ line ∈ lines, '\n' ∉ line.toList) (hlast : lines.getLast? ≠ some "") :
    codeLines (codeContent lines) = lines := by
  cases hlines' : lines.getLast? with
  | none =>
    obtain rfl := List.getLast?_eq_none_iff.mp hlines'
    rfl
  | some last =>
    have hne : lines ≠ [] := by
      rintro rfl
      cases hlines'
    have hmem : last ∈ lines := List.mem_of_getLast? hlines'
    have hempty : last.toList ≠ [] := by
      intro h
      exact hlast (by rw [hlines', String.toList_eq_nil_iff.mp h])
    have hpieces : ∀ piece ∈ lines.map String.toList, '\n' ∉ piece := by
      intro piece hpiece
      obtain ⟨line, hline, rfl⟩ := List.mem_map.mp hpiece
      exact hlines line hline
    have hend : (joinWith '\n' (lines.map String.toList)).getLast? ≠ some '\n' := by
      rw [getLast?_joinWith (by simp [hlines']) hempty]
      exact fun h ↦ hlines last hmem (List.mem_of_getLast? h)
    have hcontent : codeContent lines ≠ "" := by
      intro h
      have htoList := toList_codeContent hne
      simp [h] at htoList
    rw [codeLines, if_neg hcontent, toList_codeContent hne]
    simp only [dropWhile_reverse_lineFeed hend]
    rw [splitOnChar_joinWith (by simpa using hne) hpieces, List.map_map]
    simp

/-! ### Writing streams -/

/-- The token that holds the content between the tokens of a heading, a paragraph or a cell. -/
def tokenOfInlines (content : List Inline) : Token :=
  { kind := .inline, children := streamOfInlines content }

/-- The stream of a cell of a table. -/
def streamOfCell (header : Bool) (cell : List Inline) : List Token :=
  [{ kind := if header then .headerCellOpen else .cellOpen }, tokenOfInlines cell,
    { kind := if header then .headerCellClose else .cellClose }]

/-- The stream of a row of a table. -/
def TableRow.stream (row : TableRow) : List Token :=
  { kind := .rowOpen } :: (row.cells.flatMap (streamOfCell row.header) ++ [{ kind := .rowClose }])

/-- The stream of rows that stand next to each other: a head if they are header rows, else a
body. -/
def streamOfSection (rows : List TableRow) : List Token :=
  let header := rows.any (·.header)
  { kind := if header then .headOpen else .bodyOpen } ::
    (rows.flatMap TableRow.stream ++ [{ kind := if header then .headClose else .bodyClose }])

/-- The rows of a table, divided where a header row stands next to one that is not. -/
def tableSections (rows : List TableRow) : List (List TableRow) :=
  rows.splitBy (·.header == ·.header)

mutual

/-- The stream of a block. -/
def Block.stream : Block → List Token
  | .heading level content =>
    [{ kind := .headingOpen, tag := "h" ++ toString level }, tokenOfInlines content,
      { kind := .headingClose }]
  | .paragraph content =>
    [{ kind := .paragraphOpen }, tokenOfInlines content, { kind := .paragraphClose }]
  | .list ordered items =>
    { kind := if ordered then .orderedListOpen else .bulletListOpen } ::
      (streamOfItems items ++
        [{ kind := if ordered then .orderedListClose else .bulletListClose }])
  | .code lines => [{ kind := .fence, content := codeContent lines }]
  | .quote blocks => { kind := .quoteOpen } :: (streamOfBlocks blocks ++ [{ kind := .quoteClose }])
  | .rule => [{ kind := .rule }]
  | .table rows =>
    { kind := .tableOpen } :: ((tableSections rows).flatMap streamOfSection ++
      [{ kind := .tableClose }])
  | .unknown => []

/-- The stream of blocks. -/
def streamOfBlocks : List Block → List Token
  | [] => []
  | b :: bs => b.stream ++ streamOfBlocks bs

/-- The stream of the items of a list. -/
def streamOfItems : List (List Block) → List Token
  | [] => []
  | item :: items =>
    { kind := .itemOpen } :: (streamOfBlocks item ++ { kind := .itemClose } :: streamOfItems items)

end

/-! ### Texts that their stream tells -/

mutual

/-- Whether a block can be told from its stream: headings have levels from one to six, no line of
code holds a line feed, the last line of a code block is not empty, all inline content can be told
from its stream, and nothing is unknown. -/
def Block.isExpressible : Block → Bool
  | .heading level content => 1 ≤ level && level ≤ 6 && allExpressible content
  | .paragraph content => allExpressible content
  | .list _ items => allItemsExpressible items
  | .code lines => lines.all (fun line ↦ '\n' ∉ line.toList) && lines.getLast? ≠ some ""
  | .quote blocks => allBlocksExpressible blocks
  | .rule => true
  | .table rows => rows.all fun row ↦ row.cells.all allExpressible
  | .unknown => false

/-- Whether blocks can be told from their stream. -/
def allBlocksExpressible : List Block → Bool
  | [] => true
  | b :: bs => b.isExpressible && allBlocksExpressible bs

/-- Whether the items of a list can be told from their stream. -/
def allItemsExpressible : List (List Block) → Bool
  | [] => true
  | item :: items => allBlocksExpressible item && allItemsExpressible items

end

/-! ### Readings -/

namespace Markdown.BlockReading

variable {r r' r'' : BlockReading}

/-- Reading some tokens leads from one reading to another. -/
def Reads (r : BlockReading) (ts : List Token) (r' : BlockReading) : Prop :=
  ts.foldlM read r = .ok r'

theorem Reads.nil : r.Reads [] r := rfl

theorem Reads.cons {t : Token} {ts : List Token} (h : r.read t = .ok r')
    (hs : r'.Reads ts r'') : r.Reads (t :: ts) r'' := by
  rw [Reads, List.foldlM_cons, h]
  exact hs

theorem Reads.append {ts us : List Token} (h : r.Reads ts r') (hs : r'.Reads us r'') :
    r.Reads (ts ++ us) r'' := by
  rw [Reads] at h
  rw [Reads, List.foldlM_append, h]
  exact hs

/-- A step is a reading of one token. -/
theorem Reads.single {t : Token} (h : r.read t = .ok r') : r.Reads [t] r' := .cons h .nil

/-- Whether a block that comes next belongs to a reading: it waits neither for content nor for an
end, and its innermost frame, if there is one, holds blocks. -/
def TakesBlocks (r : BlockReading) : Prop :=
  r.expected = .anything ∧
    match r.frames with
    | [] | .quote _ :: _ | .item _ _ _ :: _ => True
    | _ => False

theorem TakesBlocks.add (h : r.TakesBlocks) (b : Block) : (r.add b).TakesBlocks := by
  obtain ⟨blocks, frames, expected⟩ := r
  unfold TakesBlocks BlockReading.add at *
  cases frames with
  | nil => exact h
  | cons f fs => cases f <;> exact h

/-- A token that closes neither a quote nor an item is taken as it is where blocks are taken. -/
theorem TakesBlocks.read (h : r.TakesBlocks) {t : Token} (hquote : t.kind ≠ .quoteClose)
    (hitem : t.kind ≠ .itemClose) : r.read t = r.takeBlock t := by
  obtain ⟨blocks, frames, expected⟩ := r
  obtain ⟨rfl, hframes⟩ := h
  match frames, hframes with
  | [], _ => rfl
  | .quote _ :: _, _ => simp [BlockReading.read, take, hquote]
  | .item _ _ _ :: _, _ => simp [BlockReading.read, take, hitem]

/-- Taking content changes neither what is expected nor what depends on it. -/
theorem put_expected (r : BlockReading) (content : List Inline) (use : ContentUse)
    (e : Expected) : ({ r with expected := e } : BlockReading).put content use =
      { r.put content use with expected := e } := by
  obtain ⟨blocks, frames, expected⟩ := r
  cases use with
  | heading level => cases frames <;> rfl
  | paragraph => cases frames <;> rfl
  | cell =>
    cases frames with
    | nil => rfl
    | cons f fs => cases f <;> rfl

/-- Where content is expected, its token and any token behind it are read as that content. -/
theorem reads_content (hexp : r.expected = .anything) {content : List Inline}
    (h : allExpressible content = true) (use : ContentUse) (closing : Token) :
    (r.await use).Reads [tokenOfInlines content, closing] (r.put content use) := by
  have hcontent : (r.await use).read (tokenOfInlines content) =
      .ok { r.put content use with expected := .ending } := by
    rw [tokenOfInlines, await, BlockReading.read]
    simp only [inlinesOf_stream h, put_expected]
  have hput : (r.put content use).expected = .anything := by
    have hsame := congrArg BlockReading.expected (put_expected r content use .anything)
    rw [← hexp] at hsame
    exact hsame.trans hexp
  refine .cons hcontent (.single ?_)
  rw [BlockReading.read]
  simp only [← hput]

/-! ### Reading tables -/

section Tables

variable (blocks : List Block) (fs : List BlockFrame)

/-- Reading the stream of a cell adds the cell to the row. -/
theorem reads_cell (header : Bool)
    (rows : List TableRow) (cells : List (List Inline)) {cell : List Inline}
    (h : allExpressible cell = true) :
    (⟨blocks, .row header rows cells :: fs, .anything⟩ : BlockReading).Reads
      (streamOfCell header cell) ⟨blocks, .row header rows (cells ++ [cell]) :: fs, .anything⟩ := by
  have hcontent := reads_content (r := ⟨blocks, .row header rows cells :: fs, .anything⟩) rfl h
    .cell { kind := if header then .headerCellClose else .cellClose }
  refine .cons ?_ hcontent
  cases header <;> rfl

/-- Reading the streams of cells adds them to the row. -/
theorem reads_cells (header : Bool)
    (rows : List TableRow) {more : List (List Inline)} (h : more.all allExpressible = true)
    (cells : List (List Inline)) :
    (⟨blocks, .row header rows cells :: fs, .anything⟩ : BlockReading).Reads
      (more.flatMap (streamOfCell header))
      ⟨blocks, .row header rows (cells ++ more) :: fs, .anything⟩ := by
  induction more generalizing cells with
  | nil => simpa using Reads.nil
  | cons cell more ih =>
    rw [List.all_cons, Bool.and_eq_true] at h
    have hrest := ih h.2 (cells ++ [cell])
    rw [List.append_assoc, List.singleton_append] at hrest
    exact (reads_cell blocks fs header rows cells h.1).append hrest

/-- Reading the streams of rows of one kind adds them to the table. -/
theorem reads_rows {header : Bool}
    {more : List TableRow} (hheader : ∀ row ∈ more, row.header = header)
    (h : (more.all fun row ↦ row.cells.all allExpressible) = true) (rows : List TableRow) :
    (⟨blocks, .table header rows :: fs, .anything⟩ : BlockReading).Reads
      (more.flatMap TableRow.stream) ⟨blocks, .table header (rows ++ more) :: fs, .anything⟩ := by
  induction more generalizing rows with
  | nil => simpa using Reads.nil
  | cons row more ih =>
    obtain ⟨rowHeader, cells⟩ := row
    obtain ⟨rfl, hmore⟩ := List.forall_mem_cons.mp hheader
    rw [List.all_cons, Bool.and_eq_true] at h
    have hrest := ih hmore h.2 (rows ++ [⟨rowHeader, cells⟩])
    rw [List.append_assoc, List.singleton_append] at hrest
    have hcells := reads_cells blocks fs rowHeader rows h.1 []
    exact Reads.append (.cons rfl (hcells.append (.single rfl))) hrest

/-- Reading the stream of a section of rows of one kind adds the rows to the table. -/
theorem reads_section {more : List TableRow}
    (hsame : ∀ row ∈ more, ∀ row' ∈ more, row.header = row'.header)
    (h : (more.all fun row ↦ row.cells.all allExpressible) = true) (rows : List TableRow) :
    (⟨blocks, .table false rows :: fs, .anything⟩ : BlockReading).Reads
      (streamOfSection more) ⟨blocks, .table false (rows ++ more) :: fs, .anything⟩ := by
  have hheader : ∀ row ∈ more, row.header = more.any (·.header) := by
    intro row hrow
    rw [Bool.eq_iff_iff, List.any_eq_true]
    exact ⟨fun hr ↦ ⟨row, hrow, hr⟩, fun ⟨row', hrow', hr⟩ ↦ (hsame row hrow row' hrow').trans hr⟩
  have hrows := reads_rows blocks fs hheader h rows
  unfold streamOfSection
  cases hany : more.any (·.header) with
  | false => exact .cons rfl ((hany ▸ hrows).append (.single rfl))
  | true => exact .cons rfl ((hany ▸ hrows).append (.single rfl))

/-- Reading the streams of sections adds all their rows to the table. -/
theorem reads_sections {sections : List (List TableRow)}
    (hsame : ∀ more ∈ sections, ∀ row ∈ more, ∀ row' ∈ more, row.header = row'.header)
    (h : (sections.flatten.all fun row ↦ row.cells.all allExpressible) = true)
    (rows : List TableRow) :
    (⟨blocks, .table false rows :: fs, .anything⟩ : BlockReading).Reads
      (sections.flatMap streamOfSection)
      ⟨blocks, .table false (rows ++ sections.flatten) :: fs, .anything⟩ := by
  induction sections generalizing rows with
  | nil => simpa using Reads.nil
  | cons more sections ih =>
    obtain ⟨hmore, hsections⟩ := List.forall_mem_cons.mp hsame
    rw [List.flatten_cons, List.all_append, Bool.and_eq_true] at h
    have hrest := ih hsections h.2 (rows ++ more)
    rw [List.append_assoc] at hrest
    exact (reads_section blocks fs hmore h.1 rows).append hrest

end Tables

/-- The rows of a section are all header rows, or none of them is. -/
theorem header_of_mem_tableSections {rows more : List TableRow} (h : more ∈ tableSections rows) :
    ∀ row ∈ more, ∀ row' ∈ more, row.header = row'.header := by
  let SameKind (row row' : TableRow) : Prop := row.header = row'.header
  have hchain : more.IsChain SameKind :=
    (List.isChain_of_mem_splitBy h).imp fun _ _ hrow ↦ eq_of_beq hrow
  have htrans : IsTrans TableRow SameKind := ⟨fun _ _ _ h h' ↦ h.trans h'⟩
  have hsymm : Std.Symm SameKind := ⟨fun _ _ h ↦ h.symm⟩
  have hrefl : ∀ row ∈ more, SameKind row row := fun _ _ ↦ rfl
  have hall := (List.isChain_iff_pairwise.mp hchain).forall_of_forall hrefl
  exact fun row hrow row' hrow' ↦ hall hrow hrow'

/-- Reading the stream of a table adds the table. -/
theorem reads_table (hr : r.TakesBlocks) {rows : List TableRow}
    (h : (rows.all fun row ↦ row.cells.all allExpressible) = true) :
    r.Reads (Block.table rows).stream (r.add (.table rows)) := by
  obtain ⟨blocks, fs, expected⟩ := r
  obtain ⟨rfl, -⟩ := id hr
  have hrows : (tableSections rows).flatten = rows := List.flatten_splitBy _ _
  have hsections := reads_sections blocks fs (fun _ hmore ↦ header_of_mem_tableSections hmore)
    (by rwa [hrows]) []
  rw [hrows, List.nil_append] at hsections
  rw [Block.stream]
  exact .cons (hr.read (by simp) (by simp)) (hsections.append (.single rfl))

/-! ### Reading blocks -/

/-- The tag of a heading tells its level. -/
theorem headingLevel_tag {level : Int} (h : 1 ≤ level ∧ level ≤ 6) :
    headingLevel ("h" ++ toString level) = .ok level := by
  obtain rfl | rfl | rfl | rfl | rfl | rfl :
    level = 1 ∨ level = 2 ∨ level = 3 ∨ level = 4 ∨ level = 5 ∨ level = 6 := by omega
  all_goals decide

/-- Reading the stream of a heading adds the heading. -/
theorem reads_heading (hr : r.TakesBlocks) {level : Int} (hlevel : 1 ≤ level ∧ level ≤ 6)
    {content : List Inline} (h : allExpressible content = true) :
    r.Reads (Block.heading level content).stream (r.add (.heading level content)) := by
  refine .cons ?_ (reads_content hr.1 h (.heading level) _)
  rw [hr.read (by simp) (by simp), takeBlock, headingLevel_tag hlevel]
  rfl

/-- Reading the stream of a paragraph adds the paragraph. -/
theorem reads_paragraph (hr : r.TakesBlocks) {content : List Inline}
    (h : allExpressible content = true) :
    r.Reads (Block.paragraph content).stream (r.add (.paragraph content)) :=
  .cons (hr.read (by simp) (by simp)) (reads_content hr.1 h .paragraph _)

/-- Reading the stream of a code block adds the code block. -/
theorem reads_code (hr : r.TakesBlocks) {lines : List String}
    (hlines : ∀ line ∈ lines, '\n' ∉ line.toList) (hlast : lines.getLast? ≠ some "") :
    r.Reads (Block.code lines).stream (r.add (.code lines)) := by
  refine .single ((hr.read (by simp) (by simp)).trans ?_)
  rw [takeBlock, codeLines_codeContent hlines hlast]

/-- Blocks that are added one after the other, where each is put behind what is held. -/
theorem foldl_add (holding : List Block → BlockReading)
    (hadd : ∀ done b, (holding done).add b = holding (done ++ [b])) (bs done : List Block) :
    bs.foldl add (holding done) = holding (done ++ bs) := by
  induction bs generalizing done with
  | nil => simp
  | cons b bs ih => rw [List.foldl_cons, hadd, ih, List.append_assoc, List.singleton_append]

mutual

/-- Reading the stream of an expressible block adds that block. -/
theorem reads_block : ∀ {b : Block}, b.isExpressible = true → ∀ {r : BlockReading},
    r.TakesBlocks → r.Reads b.stream (r.add b)
  | .heading level content, h, r, hr => by
    simp only [Block.isExpressible, Bool.and_eq_true, decide_eq_true_eq] at h
    exact reads_heading hr h.1 h.2
  | .paragraph content, h, r, hr => reads_paragraph hr h
  | .list ordered items, h, r, hr => by
    obtain ⟨blocks, fs, expected⟩ := r
    obtain ⟨rfl, -⟩ := id hr
    have hitems := reads_items h blocks fs ordered []
    rw [Block.stream]
    refine .cons ((hr.read ?_ ?_).trans ?_) (hitems.append (.single ?_)) <;> cases ordered <;>
      first | rfl | simp
  | .code lines, h, r, hr => by
    simp only [Block.isExpressible, Bool.and_eq_true, List.all_eq_true, decide_eq_true_eq] at h
    exact reads_code hr h.1 h.2
  | .quote bs, h, r, hr => by
    obtain ⟨blocks, fs, expected⟩ := r
    obtain ⟨rfl, -⟩ := id hr
    have hblocks := reads_blocks h (r := ⟨blocks, .quote [] :: fs, .anything⟩) ⟨rfl, trivial⟩
    rw [foldl_add (⟨blocks, .quote · :: fs, .anything⟩) fun _ _ ↦ rfl] at hblocks
    rw [Block.stream]
    exact .cons (hr.read (by simp) (by simp)) (hblocks.append (.single rfl))
  | .rule, _, r, hr => .single (hr.read (by simp) (by simp))
  | .table rows, h, r, hr => reads_table hr h
  | .unknown, h, _, _ => by simp [Block.isExpressible] at h

/-- Reading the stream of expressible blocks adds those blocks. -/
theorem reads_blocks : ∀ {bs : List Block}, allBlocksExpressible bs = true →
    ∀ {r : BlockReading}, r.TakesBlocks → r.Reads (streamOfBlocks bs) (bs.foldl add r)
  | [], _, _, _ => .nil
  | b :: bs, h, r, hr => by
    simp only [allBlocksExpressible, Bool.and_eq_true] at h
    exact (reads_block h.1 hr).append (reads_blocks h.2 (hr.add b))

/-- Reading the stream of expressible items adds those items to the list. -/
theorem reads_items : ∀ {items : List (List Block)}, allItemsExpressible items = true →
    ∀ (blocks : List Block) (fs : List BlockFrame) (ordered : Bool) (done : List (List Block)),
      (⟨blocks, .list ordered done :: fs, .anything⟩ : BlockReading).Reads (streamOfItems items)
        ⟨blocks, .list ordered (done ++ items) :: fs, .anything⟩
  | [], _, _, _, _, done => by simpa [streamOfItems] using Reads.nil
  | item :: items, h, blocks, fs, ordered, done => by
    simp only [allItemsExpressible, Bool.and_eq_true] at h
    have hopen : (⟨blocks, .list ordered done :: fs, .anything⟩ : BlockReading).read
        { kind := .itemOpen } = .ok ⟨blocks, .item ordered done [] :: fs, .anything⟩ := by
      cases ordered <;> rfl
    have hitem := reads_blocks h.1 (r := ⟨blocks, .item ordered done [] :: fs, .anything⟩)
      ⟨rfl, trivial⟩
    rw [foldl_add (⟨blocks, .item ordered done · :: fs, .anything⟩) fun _ _ ↦ rfl] at hitem
    have hrest := reads_items h.2 blocks fs ordered (done ++ [item])
    rw [List.append_assoc, List.singleton_append] at hrest
    rw [streamOfItems]
    exact .cons hopen (hitem.append (.cons rfl hrest))

end

end Markdown.BlockReading

/-- Reading the stream of an expressible text gives the text back, at any depth of nesting. -/
theorem blocksOf_stream {bs : List Block} (h : allBlocksExpressible bs = true) :
    blocksOf (streamOfBlocks bs) = .ok bs := by
  have hreads := BlockReading.reads_blocks h (r := {}) ⟨rfl, trivial⟩
  rw [BlockReading.foldl_add (⟨·, [], .anything⟩) fun _ _ ↦ rfl, BlockReading.Reads] at hreads
  rw [blocksOf, hreads]
  simp [Except.bind, BlockReading.finish, BlockReading.settled]

/-- A text with lists in a list of the same kind, and with a quote, a table and code in an item. -/
def nestedText : List Block :=
  [.heading 2 [.emphasis 3 [.text "a"], .lineBreak],
    .list true
      [[.paragraph [.link "u" (some "t") [.image "v" none [.code "c"]]],
          .list true [[.list true [], .code ["", "d"]], []]],
        [.quote [.rule, .code []],
          .table [⟨true, [[.text "e"], []]⟩, ⟨false, [[.emphasis 2 [.emphasis 2 []]]]⟩]]]]

theorem blocksOf_stream_nestedText : allBlocksExpressible nestedText = true ∧
    blocksOf (streamOfBlocks nestedText) = .ok nestedText :=
  ⟨by decide, blocksOf_stream (by decide)⟩

end Folio
