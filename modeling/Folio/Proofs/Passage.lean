import Folio.Proofs.Hyperlink
import Folio.Render.Block

/-!
# Passages of a text

However blocks are nested in lists, quotes and tables, a text becomes one paragraph after the other:
each paragraph is a passage of the text (`Passage`), and `passagesOf` lists the passages in reading
order, those of a table cell by cell. A passage that can be written becomes one paragraph, with what
its segments write (`Passage.write_of_ok`).
-/

set_option autoImplicit false
set_option relaxedAutoImplicit false

namespace Folio

open Word

/-! ### Passages -/

/-- What becomes a paragraph. -/
inductive Passage
  | heading (level : Int) (content : List Inline)
  | paragraph (content : List Inline)
  | itemStart (level : Int) (mark : String) (content : List Inline)
  | codeLine (first last : Bool) (line : String)
  | quoted (content : List Inline)
  | rule
  | cell (header : Bool) (content : List Inline)
  | spacer

/-- The format of a passage. -/
def Passage.format (settings : Settings) : Passage → Change Paragraph
  | .itemStart level _ _ => hangingIndent level
  | .codeLine first last _ =>
    Change.all [
      Paragraph.addShade settings.codeShade,
      Paragraph.setSpacing (codeMargin first) (codeMargin last)]
  | .quoted _ =>
    Change.all [
      Paragraph.addBorder "left" settings.ruleColor 12,
      Paragraph.setLeftIndent quoteIndent]
  | .rule => Paragraph.addBorder "bottom" settings.ruleColor 6
  | .cell header _ => fun p ↦ (p, if header then textFailure? settings.headerShade else none)
  | _ => noFormat

/-- The segments of a passage. -/
def Passage.segments (settings : Settings) : Passage → List Segment
  | .heading level content => segmentsOf settings content (.ofHeading level)
  | .paragraph content => segmentsOf settings content .plain
  | .itemStart _ mark content =>
    .fragment (.text mark .plain) :: segmentsOf settings content .plain
  | .codeLine _ _ line => if line = "" then [] else [.fragment (.text line .ofCodeLine)]
  | .quoted content => segmentsOf settings content .plain
  | .rule => []
  | .cell header content => segmentsOf settings content (if header then .ofHeader else .plain)
  | .spacer => []

/-- Writes a paragraph on its own: its format first, then its content. -/
def writeFormatted (format : Change Paragraph) (content : Step ParagraphItem Unit) :
    Step Paragraph Unit := fun s ↦
  match format Paragraph.empty with
  | (p, some e) => ⟨[p], s, .error e⟩
  | (p, none) => content.gather (fun items ↦ p.append items) s

/-- Writes a passage as a paragraph. -/
def Passage.write (env : Surroundings) (p : Passage) : Step Paragraph Unit :=
  writeFormatted (p.format env.settings)
    (Step.forEach (Segment.write env) (p.segments env.settings))

/-- The passages of the lines of a code block; `first` tells whether the next one is the first. -/
def codePassages (first : Bool) : List String → List Passage
  | [] => []
  | line :: rest => .codeLine first rest.isEmpty line :: codePassages false rest

/-- The contents of the cells of a row with a number of columns; cells beyond the contents are
empty. -/
def paddedCells : (columns : Nat) → List (List Inline) → List (List Inline)
  | 0, _ => []
  | columns + 1, contents => contents.headD [] :: paddedCells columns contents.tail

/-- The passages of the rows of a table. -/
def rowPassages (columns : Nat) (rows : List TableRow) : List Passage :=
  rows.flatMap fun row ↦ (paddedCells columns row.cells).map (.cell row.header)

/-- The passages of a table: its cells row by row, and the empty paragraph behind it. -/
def tablePassages (rows : List TableRow) : List Passage :=
  if rows.isEmpty then [] else rowPassages (columnCount rows) rows ++ [.spacer]

mutual

/-- The passages of a block; list items in it start at a level. -/
def Block.passages (level : Int) : Block → List Passage
  | .heading n content => [.heading n content]
  | .paragraph content => [.paragraph content]
  | .list ordered items => listPassages ordered level 1 items
  | .table rows => tablePassages rows
  | .code lines => codePassages true (if lines.isEmpty then [""] else lines)
  | .quote blocks => quotePassages level blocks
  | .rule => [.rule]
  | .unknown => []

/-- The passages of blocks. -/
def passagesOf (level : Int) : List Block → List Passage
  | [] => []
  | b :: bs => b.passages level ++ passagesOf level bs

/-- The passages of the blocks of a quote. -/
def quotePassages (level : Int) : List Block → List Passage
  | [] => []
  | .paragraph content :: bs => .quoted content :: quotePassages level bs
  | b :: bs => b.passages level ++ quotePassages level bs

/-- The passages of a list item. -/
def itemPassages (level : Int) (mark : String) : List Block → List Passage
  | .paragraph content :: rest => .itemStart level mark content :: passagesOf (level + 1) rest
  | b :: rest => .itemStart level mark [] :: (b.passages (level + 1) ++ passagesOf (level + 1) rest)
  | [] => [.itemStart level mark []]

/-- The passages of the items of a list, from a number on. -/
def listPassages (ordered : Bool) (level : Int) (number : Nat) :
    List (List Block) → List Passage
  | [] => []
  | item :: items =>
    itemPassages level (itemMark ordered number) item ++
      listPassages ordered level (number + 1) items

end

/-! ### Writing passages -/

/-- Writing a passage does not look at the depth of lists. -/
theorem Passage.ignoresDepth_write (env : Surroundings) (p : Passage) :
    (p.write env).IgnoresDepth := by
  have hcontent := Step.ignoresDepth_forEach (Segment.ignoresDepth_write env)
    (p.segments env.settings)
  intro s n
  unfold Passage.write writeFormatted
  rcases p.format env.settings Paragraph.empty with ⟨q, _ | e⟩
  · exact hcontent.gather _ s n
  · rfl

/-- A format puts nothing into a paragraph. -/
theorem Passage.format_leaves (settings : Settings) (p : Passage) :
    (p.format settings).Leaves Paragraph.items := by
  have halways (f : Paragraph → Paragraph) (hf : ∀ q, (f q).items = q.items) :
      (Change.always f).Leaves Paragraph.items := hf
  have hindent (n : Int) : (Paragraph.setLeftIndent n).Leaves Paragraph.items := by
    intro q
    unfold Paragraph.setLeftIndent
    dsimp only
    split <;> rfl
  have hborder (side color : String) (n : Int) :
      (Paragraph.addBorder side color n).Leaves Paragraph.items := by
    intro q
    unfold Paragraph.addBorder
    dsimp only
    split <;> rfl
  have hshade (fill : String) : (Paragraph.addShade fill).Leaves Paragraph.items := by
    intro q
    unfold Paragraph.addShade
    split <;> rfl
  cases p with
  | itemStart level mark content =>
    rw [Passage.format, hangingIndent]
    rcases indentOfLevel level with e | emu
    · exact fun _ ↦ rfl
    · exact (hindent emu).all_cons ((halways _ fun _ ↦ rfl).all_cons Change.all_nil_leaves)
  | codeLine first last line =>
    exact (hshade _).all_cons ((halways _ fun _ ↦ rfl).all_cons Change.all_nil_leaves)
  | quoted content =>
    exact (hborder _ _ _).all_cons ((hindent _).all_cons Change.all_nil_leaves)
  | rule => exact hborder _ _ _
  | _ => exact fun _ ↦ rfl

/-- A passage that can be written becomes one paragraph, with what its segments write. -/
theorem Passage.write_of_ok {env : Surroundings} {p : Passage} {s : RenderState}
    (h : (p.write env s).result = .ok ()) :
    ∃ q : Paragraph,
      q.items = (Step.forEach (Segment.write env) (p.segments env.settings) s).written ∧
      (Step.forEach (Segment.write env) (p.segments env.settings) s).result = .ok () ∧
      p.write env s =
        ⟨[q], (Step.forEach (Segment.write env) (p.segments env.settings) s).state, .ok ()⟩ := by
  have hleaves := p.format_leaves env.settings Paragraph.empty
  unfold Passage.write writeFormatted at *
  rcases hformat : p.format env.settings Paragraph.empty with ⟨q, _ | e⟩
  · simp only [hformat, Step.gather] at h hleaves ⊢
    have hitems (items : List ParagraphItem) : (q.append items).items = items := by
      simp [Paragraph.append, hleaves, Paragraph.empty]
    exact ⟨_, hitems _, h, congrArg _ h⟩
  · simp only [hformat] at h
    cases h

/-- Writes passages as paragraphs one after the other. -/
def writePassages (env : Surroundings) (ps : List Passage) : Step Paragraph Unit :=
  Step.forEach (Passage.write env) ps

theorem writePassages_singleton (env : Surroundings) (p : Passage) :
    writePassages env [p] = p.write env := Step.forEach_singleton _ p

theorem writePassages_append (env : Surroundings) (ps qs : List Passage) :
    writePassages env (ps ++ qs) = (writePassages env ps).bind fun _ ↦ writePassages env qs :=
  Step.forEach_append _ ps qs

theorem ignoresDepth_writePassages (env : Surroundings) (ps : List Passage) :
    (writePassages env ps).IgnoresDepth :=
  Step.ignoresDepth_forEach (Passage.ignoresDepth_write env) ps

/-- Passages that can be written are written as paragraphs in a relation to them, one for one, if
each passage is in the states that have a property, and the passages keep the property. -/
theorem forall₂_writePassages {env : Surroundings} {I : RenderState → Prop}
    {S : Passage → Paragraph → Prop} {ps : List Passage}
    (hkeep : ∀ p ∈ ps, (p.write env).Obeys fun s _ t ↦ I s → I t)
    (h : ∀ p ∈ ps, ∀ s, I s → (p.write env s).result = .ok () →
      ∃ q, (p.write env s).written = [q] ∧ S p q)
    {s : RenderState} (hs : I s) (hok : (writePassages env ps s).result = .ok ()) :
    List.Forall₂ S ps (writePassages env ps s).written := by
  have hone : ∀ p ∈ ps, ∀ s, I s → (p.write env s).result = .ok () →
      List.Forall₂ S [p] ((p.write env s).written.flatMap ([·])) := by
    intro p hp t ht hpok
    obtain ⟨q, hwritten, hq⟩ := h p hp t ht hpok
    rw [hwritten]
    exact .cons hq .nil
  have hall := Step.forall₂_forEach hkeep hone hs hok
  simpa [writePassages] using hall

/-- Passages that can be written are written as paragraphs in a relation to them, one for one, if
each passage is in any state. -/
theorem forall₂_writePassages_of_forall {env : Surroundings} {S : Passage → Paragraph → Prop}
    {ps : List Passage} {s : RenderState}
    (h : ∀ p ∈ ps, ∀ s, (p.write env s).result = .ok () →
      ∃ q, (p.write env s).written = [q] ∧ S p q)
    (hok : (writePassages env ps s).result = .ok ()) :
    List.Forall₂ S ps (writePassages env ps s).written :=
  forall₂_writePassages (I := fun _ ↦ True) (fun _ _ _ _ ↦ trivial) (fun p hp s _ ↦ h p hp s)
    trivial hok

end Folio
