import Folio.Proofs.Containment
import Folio.Proofs.DescentAgrees
import Mathlib.Data.List.DropRight

/-!
# Contents stay in order

What a text tells at the leaves of its tree is told by one token each: texts, code, targets and the
contents of code blocks, where a soft break counts as its space. In the order of the tree these are
some of what the tokens of the stream tell, in the order of the stream (`told_blocksOf`). One token
never changes what has been read before it, and adds no more than it tells itself
(`told_readInline`, `told_read`); closing a frame changes nothing (`told_closed`, `told_settled`).

`token_loops_progress` states this of the loops that descend into a stream, beside their progress
and their agreement with the stack.
-/

set_option autoImplicit false
set_option relaxedAutoImplicit false

namespace Folio

/-- What a leaf of a text tells. -/
inductive Told
  | text (content : String)
  | code (content : String)
  | target (url : String)
  | block (content : String)
  deriving DecidableEq, Repr

/-! ### Leaves of the tree -/

mutual

/-- What the leaves of a piece of inline content tell, from left to right. -/
def Inline.told : Inline → List Told
  | .text content => [.text content]
  | .code content => [.code content]
  | .emphasis _ children => toldByInlines children
  | .link url _ children => .target url :: toldByInlines children
  | .image url _ alt => .target url :: toldByInlines alt
  | .lineBreak => []
  | .unknown => []

/-- What the leaves of inline content tell. -/
def toldByInlines : List Inline → List Told
  | [] => []
  | x :: xs => x.told ++ toldByInlines xs

end

/-- What the leaves of the cells of a row tell. -/
def toldByCells (cells : List (List Inline)) : List Told := cells.flatMap toldByInlines

/-- What the leaves of the rows of a table tell. -/
def toldByRows (rows : List TableRow) : List Told := rows.flatMap fun row ↦ toldByCells row.cells

mutual

/-- What the leaves of a block tell, from left to right. The content of a code block is its lines
with line feeds between them. -/
def Block.told : Block → List Told
  | .heading _ content => toldByInlines content
  | .paragraph content => toldByInlines content
  | .list _ items => toldByItems items
  | .code lines => [.block (joined "\n" lines)]
  | .quote blocks => toldByBlocks blocks
  | .rule => []
  | .table rows => toldByRows rows
  | .unknown => []

/-- What the leaves of blocks tell. -/
def toldByBlocks : List Block → List Told
  | [] => []
  | b :: bs => b.told ++ toldByBlocks bs

/-- What the leaves of the items of a list tell. -/
def toldByItems : List (List Block) → List Told
  | [] => []
  | item :: items => toldByBlocks item ++ toldByItems items

end

section Leaves

theorem toldByInlines_append (xs ys : List Inline) :
    toldByInlines (xs ++ ys) = toldByInlines xs ++ toldByInlines ys := by
  induction xs with
  | nil => rfl
  | cons x xs ih => rw [List.cons_append, toldByInlines, ih, toldByInlines, List.append_assoc]

theorem toldByBlocks_append (bs cs : List Block) :
    toldByBlocks (bs ++ cs) = toldByBlocks bs ++ toldByBlocks cs := by
  induction bs with
  | nil => rfl
  | cons b bs ih => rw [List.cons_append, toldByBlocks, ih, toldByBlocks, List.append_assoc]

theorem toldByItems_append (items more : List (List Block)) :
    toldByItems (items ++ more) = toldByItems items ++ toldByItems more := by
  induction items with
  | nil => rfl
  | cons item items ih => rw [List.cons_append, toldByItems, ih, toldByItems, List.append_assoc]

end Leaves

namespace Markdown

/-! ### Contents of tokens -/

/-- A text without the line feeds at its end. -/
def withoutLastLineFeeds (content : String) : String :=
  String.ofList (content.toList.rdropWhile (· = '\n'))

/-- What a token tells itself. -/
def Token.toldItself (t : Token) : List Told :=
  match t.kind with
  | .text | .specialText => [.text t.content]
  | .softBreak => [.text " "]
  | .codeSpan => [.code t.content]
  | .linkOpen | .image => [.target t.target]
  | .fence | .indentedCode => [.block (withoutLastLineFeeds t.content)]
  | _ => []

mutual

/-- What a token tells, and the tokens inside it. -/
def Token.told : Token → List Told
  | ⟨kind, tag, content, target, title, children⟩ =>
    Token.toldItself ⟨kind, tag, content, target, title, children⟩ ++ toldByTokens children

/-- What the tokens of a stream tell. -/
def toldByTokens : List Token → List Told
  | [] => []
  | t :: ts => t.told ++ toldByTokens ts

end

theorem told_eq (t : Token) : t.told = t.toldItself ++ toldByTokens t.children := by
  cases t
  rfl

/-- The lines of a code block are its content without the line feeds at the end. -/
theorem joined_codeLines (content : String) :
    joined "\n" (codeLines content) = withoutLastLineFeeds content := by
  have hjoined (pieces : List String) :
      (joined "\n" pieces).toList = joinWith '\n' (pieces.map String.toList) := by
    rw [joined, String.toList_intercalate, ← intercalate_eq_joinWith]
    rfl
  rw [← String.toList_inj, hjoined, withoutLastLineFeeds, codeLines]
  split
  · next hempty =>
    subst hempty
    rfl
  · rw [List.map_map]
    simp [Function.comp_def, joinWith_splitOnChar, List.rdropWhile]

/-! ### Inline content -/

section Inline

variable {r : InlineReading} {t : Token} {ts : List Token}

/-- What has been told before a frame was opened, and by the token that opened it. -/
def InlineFrame.told : InlineFrame → List Told
  | italic before => toldByInlines before
  | bold before => toldByInlines before
  | link url _ before => toldByInlines before ++ [.target url]

/-- What has been told of the content that has been read so far. -/
def InlineReading.told (r : InlineReading) : List Told :=
  r.frames.reverse.flatMap InlineFrame.told ++ toldByInlines r.content

theorem told_foldedEmphasis (n : Int) (children : List Inline) :
    (foldedEmphasis n children).told = toldByInlines children := by
  unfold foldedEmphasis
  split
  · split <;> simp [Inline.told, toldByInlines]
  · rfl

/-- Closing a frame leaves what has been told as it is. -/
theorem told_closed (f : InlineFrame) (content : List Inline) :
    toldByInlines (InlineReading.closed foldedEmphasis content f) =
      f.told ++ toldByInlines content := by
  cases f <;>
    simp [InlineReading.closed, InlineFrame.told, toldByInlines_append, toldByInlines, Inline.told,
      told_foldedEmphasis]

theorem told_leave (r : InlineReading) (kind : TokenKind) :
    (r.leave foldedEmphasis kind).told = r.told := by
  obtain ⟨content, _ | ⟨f, fs⟩⟩ := r
  · rfl
  · unfold InlineReading.leave
    dsimp only
    split
    · simp [InlineReading.told, told_closed]
    · rfl

theorem told_add (r : InlineReading) (x : Inline) : (r.add x).told = r.told ++ x.told := by
  simp [InlineReading.told, InlineReading.add, toldByInlines_append, toldByInlines]

theorem told_finish (r : InlineReading) :
    toldByInlines (r.finish foldedEmphasis) = r.told := by
  obtain ⟨content, frames⟩ := r
  induction frames generalizing content with
  | nil => rfl
  | cons f fs ih =>
    refine (ih (InlineReading.closed foldedEmphasis content f)).trans ?_
    simp [InlineReading.told, told_closed]

mutual

/-- A token of inline content adds no more than it tells. -/
theorem told_readInline (r : InlineReading) :
    ∀ t : Token, (readInline foldedEmphasis r t).told.Sublist (r.told ++ t.told)
  | ⟨kind, tag, content, target, title, children⟩ => by
    have hchildren := told_readInlines {} children
    rw [told_eq, ← List.append_assoc]
    cases kind
    case image =>
      have halt : (toldByInlines ((readInlines foldedEmphasis {} children).finish
          foldedEmphasis)).Sublist (toldByTokens children) := by
        rw [told_finish]
        exact hchildren
      rw [readInline, told_add, Inline.told, List.append_assoc]
      exact (halt.cons_cons (.target target)).append_left r.told
    -- all other tokens are read without regard to what is inside them
    all_goals refine List.Sublist.trans ?_ (List.sublist_append_left _ (toldByTokens children))
    case text | specialText =>
      rw [readInline]
      split
      · exact List.sublist_append_left _ _
      · rw [told_add]
        exact List.Sublist.refl _
    case emphasisOpen | strongOpen | linkOpen =>
      simp [readInline, InlineReading.told, InlineFrame.told, Token.toldItself, toldByInlines]
    all_goals simp [readInline, Token.toldItself, told_add, told_leave, Inline.told]

/-- Tokens of inline content add no more than they tell. -/
theorem told_readInlines (r : InlineReading) :
    ∀ ts : List Token, (readInlines foldedEmphasis r ts).told.Sublist (r.told ++ toldByTokens ts)
  | [] => by
    rw [readInlines, toldByTokens, List.append_nil]
  | t :: ts => by
    rw [readInlines, toldByTokens, ← List.append_assoc]
    exact (told_readInlines _ ts).trans ((told_readInline r t).append_right _)

end

/-- Inline content tells some of what its tokens tell, in their order. -/
theorem told_inlinesOf (ts : List Token) :
    (toldByInlines (inlinesOf ts)).Sublist (toldByTokens ts) := by
  rw [inlinesOf, told_finish]
  exact told_readInlines {} ts

end Inline

/-! ### Blocks -/

section Block

variable {r r' : BlockReading} {t : Token} {ts : List Token}

/-- What has been told of the blocks that a frame holds so far. -/
def BlockFrame.told : BlockFrame → List Told
  | quote blocks => toldByBlocks blocks
  | list _ items => toldByItems items
  | item _ items blocks => toldByItems items ++ toldByBlocks blocks
  | table _ rows => toldByRows rows
  | row _ rows cells => toldByRows rows ++ toldByCells cells

/-- What has been told of the blocks that have been read so far. -/
def BlockReading.told (r : BlockReading) : List Told :=
  toldByBlocks r.blocks ++ r.frames.reverse.flatMap BlockFrame.told

theorem told_block (f : BlockFrame) : f.block.told = f.told := by
  cases f <;>
    simp [BlockFrame.block, BlockFrame.told, Block.told, toldByItems_append, toldByItems,
      toldByRows]

theorem told_frame_add (f : BlockFrame) (b : Block) :
    (f.add b).told.Sublist (f.told ++ b.told) := by
  cases f <;> simp [BlockFrame.add, BlockFrame.told, toldByBlocks_append, toldByBlocks]

namespace BlockReading

theorem told_add (r : BlockReading) (b : Block) : (r.add b).told.Sublist (r.told ++ b.told) := by
  obtain ⟨blocks, _ | ⟨f, fs⟩, expected⟩ := r
  · simp [told, add, toldByBlocks_append, toldByBlocks]
  · simpa [told, add] using told_frame_add f b

/-- A frame that is opened or changed adds what it tells to what is told around it. -/
theorem told_frames (blocks : List Block) (f : BlockFrame) (fs : List BlockFrame) (e : Expected) :
    told ⟨blocks, f :: fs, e⟩ = told ⟨blocks, fs, .anything⟩ ++ f.told := by
  simp [told]

theorem told_leave (r : BlockReading) : r.leave.told.Sublist r.told := by
  obtain ⟨blocks, _ | ⟨f, fs⟩, expected⟩ := r
  · exact List.Sublist.refl _
  · rw [told_frames, ← told_block]
    exact told_add ⟨blocks, fs, expected⟩ f.block

/-- Content that is taken tells what it tells. -/
theorem told_put (r : BlockReading) (content : List Inline) (use : ContentUse) :
    (r.put content use).told.Sublist (r.told ++ toldByInlines content) := by
  cases use with
  | heading level => exact told_add r (.heading level content)
  | paragraph => exact told_add r (.paragraph content)
  | cell =>
    obtain ⟨blocks, _ | ⟨f, fs⟩, expected⟩ := r
    · exact List.sublist_append_left _ _
    · cases f with
      | row inHead rows cells => simp [put, told, BlockFrame.told, toldByCells]
      | _ => exact List.sublist_append_left _ _

/-- A frame that is opened empty tells nothing. -/
theorem told_enter {f : BlockFrame} (h : f.told = []) (r : BlockReading) :
    (r.enter f).told = r.told := by
  simp [enter, told, h]

theorem told_takeBlock (h : r.takeBlock t = .ok r') : r'.told.Sublist (r.told ++ t.toldItself) := by
  have hcode (hkind : t.kind = .fence ∨ t.kind = .indentedCode) :
      (r.add (.code (codeLines t.content))).told.Sublist (r.told ++ t.toldItself) := by
    have hsame : (Block.code (codeLines t.content)).told = t.toldItself := by
      rcases hkind with hkind | hkind <;>
        rw [Block.told, joined_codeLines, Token.toldItself, hkind]
    exact hsame ▸ told_add r _
  have hkept : r.told.Sublist (r.told ++ t.toldItself) := List.sublist_append_left _ _
  unfold takeBlock at h
  split at h
  · rcases hlevel : headingLevel t.tag with fault | level <;> rw [hlevel] at h <;> cases h
    exact hkept
  · cases h
    exact hkept
  · cases h
    rwa [told_enter rfl]
  · cases h
    rwa [told_enter rfl]
  · cases h
    rwa [told_enter rfl]
  · next hkind =>
    cases h
    exact hcode (.inl hkind)
  · next hkind =>
    cases h
    exact hcode (.inr hkind)
  · cases h
    exact (told_add r .rule).trans (List.Sublist.append_left (List.nil_sublist _) _)
  · cases h
    rwa [told_enter rfl]
  · cases h
    exact hkept

theorem told_take (h : r.take t = .ok r') : r'.told.Sublist (r.told ++ t.toldItself) := by
  have hkept : r.told.Sublist (r.told ++ t.toldItself) := List.sublist_append_left _ _
  have hleave : r.leave.told.Sublist (r.told ++ t.toldItself) := (told_leave r).trans hkept
  obtain ⟨blocks, _ | ⟨f, fs⟩, expected⟩ := r
  · exact told_takeBlock h
  -- where a frame takes the place of another one, it tells the same
  · have hsame {g : BlockFrame} (htold : g.told = f.told) : List.Sublist
        (told ⟨blocks, g :: fs, expected⟩) (told ⟨blocks, f :: fs, expected⟩ ++ t.toldItself) := by
      rwa [told_frames, htold, ← told_frames]
    cases f with
    | quote quoted =>
      simp only [take] at h
      split at h
      · cases h
        exact hleave
      · exact told_takeBlock h
    | list ordered items =>
      simp only [take] at h
      split at h
      · cases h
        exact hleave
      · split at h <;> cases h
        · exact hsame (by simp [BlockFrame.told, toldByBlocks])
        · exact hkept
    | item ordered items done =>
      simp only [take] at h
      split at h
      · cases h
        exact hsame (by simp [BlockFrame.told, toldByItems_append, toldByItems])
      · exact told_takeBlock h
    | table inHead rows =>
      simp only [take] at h
      split at h <;> cases h
      · exact hsame rfl
      · exact hsame rfl
      · exact hsame (by simp [BlockFrame.told, toldByCells])
      · exact hleave
      · exact hkept
    | row inHead rows cells =>
      simp only [take] at h
      split at h <;> cases h
      · exact hsame (by simp [BlockFrame.told, toldByRows])
      · exact hkept
      · exact hkept
      · exact hkept

/-- A token adds no more than it tells. -/
theorem told_read (h : r.read t = .ok r') : r'.told.Sublist (r.told ++ t.told) := by
  rw [told_eq]
  unfold read at h
  split at h
  · refine (told_take h).trans ?_
    rw [← List.append_assoc]
    exact List.sublist_append_left _ _
  · next use _ =>
    cases h
    have hinside : (toldByInlines (inlinesOf t.children)).Sublist
        (t.toldItself ++ toldByTokens t.children) :=
      (told_inlinesOf t.children).trans (List.sublist_append_right _ _)
    exact (told_put r _ use).trans (hinside.append_left _)
  · cases h
    exact List.sublist_append_left _ _

/-- Tokens add no more than they tell. -/
theorem told_reads (h : r.Reads ts r') : r'.told.Sublist (r.told ++ toldByTokens ts) := by
  induction ts generalizing r with
  | nil =>
    cases h
    exact List.sublist_append_left _ _
  | cons t ts ih =>
    rw [Reads, List.foldlM_cons] at h
    rcases hread : r.read t with fault | r₁ <;> rw [hread] at h
    · cases h
    · rw [toldByTokens, ← List.append_assoc]
      exact (ih h).trans ((told_read hread).append_right _)

/-- Closing what is open changes nothing. -/
theorem told_settled (blocks : List Block) (b? : Option Block) (frames : List BlockFrame) :
    (toldByBlocks (settled blocks b? frames)).Sublist
      (toldByBlocks blocks ++ frames.reverse.flatMap BlockFrame.told ++
        toldByBlocks b?.toList) := by
  induction frames generalizing b? with
  | nil => simp [settled, toldByBlocks_append]
  | cons f fs ih =>
    cases b? with
    | none => simpa [settled, toldByBlocks, told_block] using ih (some f.block)
    | some b =>
      have hframe : (f.add b).block.told.Sublist (f.told ++ b.told) := by
        rw [told_block]
        exact told_frame_add f b
      rw [settled]
      refine (ih (some (f.add b).block)).trans ?_
      simpa [toldByBlocks] using hframe

end BlockReading

/-- A text tells some of what the tokens of its stream tell, in their order. -/
theorem told_blocksOf {blocks : List Block} (h : blocksOf ts = .ok blocks) :
    (toldByBlocks blocks).Sublist (toldByTokens ts) := by
  rw [blocksOf] at h
  rcases hreads : ts.foldlM BlockReading.read {} with fault | r <;> rw [hreads] at h
  · cases h
  · have hall : r.told.Sublist (toldByTokens ts) := BlockReading.told_reads hreads
    refine List.Sublist.trans ?_ hall
    change r.finish = .ok blocks at h
    unfold BlockReading.finish at h
    split at h
    · cases h
    · cases h
    · cases h
      simpa [BlockReading.told, toldByBlocks] using
        BlockReading.told_settled r.blocks none r.frames

end Block

/-! ### The loops on any stream -/

/-- A loop has come to its end if it had turns enough for the stream, and gives back no index before
the one that it was given. -/
def EndsBehind {α : Type} (turns : Nat) (ts : List Token) (i : Nat)
    (result : Except Halt (α × Nat)) : Prop :=
  (tokenCount ts < turns → result ≠ .error .outOfTurns) ∧ ∀ a j, result = .ok (a, j) → i ≤ j

theorem Progresses.endsBehind {α : Type} {turns i : Nat} {ts : List Token}
    {MayFail : StreamFault → Prop} {result : Except Halt (α × Nat)}
    (h : Progresses turns ts i MayFail result) : EndsBehind turns ts i result := by
  refine ⟨fun henough hout ↦ ?_, fun a j hresult ↦ ?_⟩
  · subst hout
    have hleft : tokenCount (ts.drop i) ≤ tokenCount ts := tokenCount_drop_le (i := 0) i.zero_le
    have hturns : turns ≤ tokenCount (ts.drop i) := h
    omega
  · subst hresult
    exact h

/-- Whatever the stream, balanced or not: the loops come to their ends and never go back, from every
index and with every token to stop at. Reading the stream by them is reading it with the stack. It
fails only where a token needs others behind it or a heading has no level, and what the tree tells
is some of what the tokens tell, in their order. -/
theorem token_loops_progress (ts : List Token) :
    (∀ turns i,
      (∀ closing content, EndsBehind turns ts i (inlineLoop turns ts closing i content)) ∧
      (∀ stop blocks, EndsBehind turns ts i (blockLoop turns ts stop i blocks)) ∧
      (∀ ordered items, EndsBehind turns ts i (listLoop turns ts ordered i items)) ∧
      (∀ inHead rows, EndsBehind turns ts i (tableLoop turns ts inHead i rows)) ∧
      ∀ cells, EndsBehind turns ts i (rowLoop turns ts i cells)) ∧
    (∀ turns, tokenCount ts < turns →
      (inlineLoop turns ts none 0 []).map (·.1) = .ok (inlinesOf ts) ∧
      (blockLoop turns ts none 0 []).map (·.1) = (blocksOf ts).mapError .fault) ∧
    (∀ fault, blocksOf ts = .error fault → fault.IsCausedIn ts) ∧
    (∀ blocks, blocksOf ts = .ok blocks → (toldByBlocks blocks).Sublist (toldByTokens ts)) ∧
    (toldByInlines (inlinesOf ts)).Sublist (toldByTokens ts) := by
  refine ⟨fun turns i ↦ ?_, fun turns henough ↦ ⟨inlineLoop_eq henough, blockLoop_eq henough⟩,
    fun fault ↦ isCausedIn_of_blocksOf, fun blocks ↦ told_blocksOf, told_inlinesOf ts⟩
  have hblocks := loopsProgress turns ts
  exact ⟨fun closing content ↦ (inlineLoop_progresses turns ts closing i content).endsBehind,
    fun stop blocks ↦ (hblocks.blocks stop i blocks).endsBehind,
    fun ordered items ↦ (hblocks.items ordered i items).endsBehind,
    fun inHead rows ↦ (hblocks.rows inHead i rows).endsBehind,
    fun cells ↦ (hblocks.cells i cells).endsBehind⟩

/-- A list whose only item is cut off: the item and the list end with the stream, the index behind
it. -/
example : blockLoop 9 [{ kind := .bulletListOpen }, { kind := .itemOpen }, { kind := .rule },
    { kind := .quoteClose }] none 0 [] = .ok ([.list false [[.rule]]], 6) := rfl

end Markdown
end Folio
