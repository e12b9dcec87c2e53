import Folio.Proofs.BlockStream
import Folio.Proofs.Descent

/-!
# The descent agrees with the stack

Reading a stream with a stack of what is open, and reading it by loops that call each other for what
tokens open, is the same. What a loop has gathered so far is what the innermost frame holds, and
what is still to come of the stack after a loop has ended is what would have come of it before
(`Follows`). A frame that is open at the end of the stream counts as closed there (`finish_enter`),
just as a loop that comes to the end gives back what it has.

So with turns enough the loops give what the stack gives (`inlineLoop_eq`, `blockLoop_eq`), and the
stack comes to a fault only if a token of the stream is its cause (`isCausedIn_of_blocksOf`).
-/

set_option autoImplicit false
set_option relaxedAutoImplicit false

namespace Folio.Markdown

section Follows

variable {α β γ : Type} {here : Except StreamFault γ}

/-- What comes of a stream before a loop, `here`, is what comes of it with the result of the loop,
`next`; it is the fault of the loop if that has one. -/
def Follows (here : Except StreamFault γ) (next : α → Nat → Except StreamFault γ) :
    Except Halt (α × Nat) → Prop
  | .ok (a, j) => here = next a j
  | .error .outOfTurns => True
  | .error (.fault fault) => here = .error fault

/-- A loop calls another one, and goes on with what that gives back. -/
theorem Follows.call {next : α → Nat → Except StreamFault γ}
    {next' : β → Nat → Except StreamFault γ} {result : Except Halt (α × Nat)}
    {rest : α × Nat → Except Halt (β × Nat)} (h : Follows here next result)
    (hrest : ∀ a j, Follows (next a j) next' (rest (a, j))) :
    Follows here next' (result >>= rest) := by
  rcases result with (_ | fault) | ⟨a, j⟩
  · trivial
  · exact h
  · have hhere : here = next a j := h
    exact hhere ▸ hrest a j

/-- A loop calls another one for what is inside a token, which comes to no fault, and goes on. -/
theorem Follows.inside {inner : List Inline} {next' : β → Nat → Except StreamFault γ}
    {result : Except Halt (List Inline × Nat)} {rest : List Inline × Nat → Except Halt (β × Nat)}
    (h : Follows (.ok inner : Except StreamFault (List Inline)) (fun content _ ↦ .ok content)
      result)
    (hrest : ∀ j, Follows here next' (rest (inner, j))) :
    Follows here next' (result >>= rest) := by
  rcases result with (_ | fault) | ⟨content, j⟩
  · trivial
  · cases h
  · obtain rfl := Except.ok.inj h
    exact hrest j

end Follows

/-! ### Inline content -/

section Inline

variable {turns i j : Nat} {ts : List Token} {t : Token} {content : List Inline}
  {frames : List InlineFrame}

namespace InlineReading

/-- What comes of a reading with the rest of a stream. -/
def rest (r : InlineReading) (ts : List Token) : Except StreamFault (List Inline) :=
  .ok ((readInlines foldedEmphasis r ts).finish foldedEmphasis)

/-- What comes of content that has been read in the innermost of some frames. -/
def resume (ts : List Token) : List InlineFrame → List Inline → Nat →
    Except StreamFault (List Inline)
  | [], content, _ => .ok content
  | f :: fs, content, j => rest ⟨closed foldedEmphasis content f, fs⟩ (ts.drop j)

theorem rest_drop (ht : ts[i]? = some t) (r : InlineReading) :
    r.rest (ts.drop i) = rest (readInline foldedEmphasis r t) (ts.drop (i + 1)) := by
  rw [rest, rest, drop_eq_cons ht, readInlines]

/-- What is open at the end of a stream counts as closed there. -/
theorem rest_of_none (ht : ts[i]? = none) :
    rest ⟨content, frames⟩ (ts.drop i) = resume ts frames content i := by
  rw [List.getElem?_eq_none_iff] at ht
  cases frames with
  | nil => rw [List.drop_eq_nil_of_le ht]; rfl
  | cons f fs => rw [resume, List.drop_eq_nil_of_le ht]; rfl

end InlineReading

/-- A token that closes the innermost frame is read so. -/
theorem readInline_closing {f : InlineFrame} (h : f.closing = t.kind)
    (emphasis : Int → List Inline → Inline) :
    readInline emphasis ⟨content, f :: frames⟩ t =
      ⟨InlineReading.closed emphasis content f, frames⟩ := by
  obtain ⟨kind, tag, text, target, title, children⟩ := t
  obtain rfl : f.closing = kind := h
  cases f <;> simp [readInline, InlineReading.leave, InlineFrame.closing]

/-- A token that neither opens nor closes anything and holds no content adds its own. -/
theorem readInline_own (hclosing : frames.head?.map (·.closing) ≠ some t.kind)
    (hkind : t.kind ≠ .emphasisOpen ∧ t.kind ≠ .strongOpen ∧ t.kind ≠ .linkOpen ∧ t.kind ≠ .image)
    (emphasis : Int → List Inline → Inline) :
    readInline emphasis ⟨content, frames⟩ t = ⟨content ++ t.ownInline, frames⟩ := by
  obtain ⟨kind, tag, text, target, title, children⟩ := t
  have hleave : InlineReading.leave emphasis ⟨content, frames⟩ kind = ⟨content, frames⟩ := by
    cases frames with
    | nil => rfl
    | cons f fs => exact if_neg (by simpa using hclosing)
  cases kind <;> simp_all [readInline, Token.ownInline, InlineReading.add]
  all_goals split <;> simp_all

/-- The frame that a token opens behind some content. -/
def InlineFrame.opened? (t : Token) (before : List Inline) : Option InlineFrame :=
  match t.kind with
  | .emphasisOpen => some (.italic before)
  | .strongOpen => some (.bold before)
  | .linkOpen => some (.link t.target t.title before)
  | _ => none

theorem readInline_opened {f : InlineFrame} (h : InlineFrame.opened? t content = some f)
    (emphasis : Int → List Inline → Inline) :
    readInline emphasis ⟨content, frames⟩ t = ⟨[], f :: frames⟩ := by
  obtain ⟨kind, tag, text, target, title, children⟩ := t
  cases kind <;> simp_all [InlineFrame.opened?, readInline]

theorem readInline_image (h : t.kind = .image) (emphasis : Int → List Inline → Inline) :
    readInline emphasis ⟨content, frames⟩ t =
      ⟨content ++ [.image t.target t.title ((readInlines emphasis {} t.children).finish emphasis)],
        frames⟩ := by
  obtain ⟨kind, tag, text, target, title, children⟩ := t
  obtain rfl : kind = .image := h
  simp [readInline, InlineReading.add]

/-- The loop of inline content follows the stack. -/
theorem inlineLoop_follows (turns : Nat) (ts : List Token) (frames : List InlineFrame) (i : Nat)
    (content : List Inline) :
    Follows (InlineReading.rest ⟨content, frames⟩ (ts.drop i)) (InlineReading.resume ts frames)
      (inlineLoop turns ts (frames.head?.map (·.closing)) i content) := by
  induction turns generalizing ts frames i content with
  | zero => trivial
  | succ turns ih =>
    rw [inlineLoop]
    split
    · next ht => exact InlineReading.rest_of_none ht
    · next t ht =>
      rw [InlineReading.rest_drop ht]
      split
      · next hclosing =>
        cases frames with
        | nil => cases hclosing
        | cons f fs =>
          rw [readInline_closing (Option.some.inj hclosing)]
          rfl
      · next hclosing =>
        split
        · next hkind =>
          rw [readInline_opened (f := .italic content) (by rw [InlineFrame.opened?, hkind])]
          exact .call (ih ts (.italic content :: frames) (i + 1) []) fun children j ↦
            ih ts frames j _
        · next hkind =>
          rw [readInline_opened (f := .bold content) (by rw [InlineFrame.opened?, hkind])]
          exact .call (ih ts (.bold content :: frames) (i + 1) []) fun children j ↦
            ih ts frames j _
        · next hkind =>
          rw [readInline_opened (f := .link t.target t.title content)
            (by rw [InlineFrame.opened?, hkind])]
          exact .call (ih ts (.link t.target t.title content :: frames) (i + 1) [])
            fun children j ↦ ih ts frames j _
        · next hkind =>
          rw [readInline_image hkind]
          exact .inside (ih t.children [] 0 []) fun _ ↦ ih ts frames (i + 1) _
        · next hitalic hbold hlink himage =>
          rw [readInline_own hclosing ⟨hitalic, hbold, hlink, himage⟩]
          exact ih ts frames (i + 1) _

/-- Reading inline content by the loop gives what reading it with the stack gives. -/
theorem eq_inlinesOf_of_inlineLoop {ts : List Token} {content : List Inline}
    (h : inlineLoop turns ts none 0 [] = .ok (content, j)) : content = inlinesOf ts := by
  have hfollows := inlineLoop_follows turns ts [] 0 []
  rw [List.head?_nil, Option.map_none, h, List.drop_zero] at hfollows
  exact (Except.ok.inj hfollows).symm

end Inline

/-! ### Readings of blocks -/

section Block

variable {turns i j : Nat} {ts : List Token} {t : Token} {r : BlockReading}

theorem getElem?_succ_eq_none (ht : ts[i]? = none) : ts[i + 1]? = none :=
  List.getElem?_eq_none (Nat.le_succ_of_le (List.getElem?_eq_none_iff.mp ht))

namespace BlockReading

/-- What comes of a reading with the rest of a stream. -/
def rest (r : BlockReading) (ts : List Token) : Except StreamFault (List Block) :=
  (ts.foldlM read r).bind finish

theorem rest_of_none (ht : ts[i]? = none) (r : BlockReading) : r.rest (ts.drop i) = r.finish := by
  rw [List.getElem?_eq_none_iff] at ht
  rw [List.drop_eq_nil_of_le ht]
  rfl

theorem rest_drop (ht : ts[i]? = some t) (r : BlockReading) :
    r.rest (ts.drop i) = (r.read t).bind (·.rest (ts.drop (i + 1))) := by
  rw [rest, drop_eq_cons ht, List.foldlM_cons]
  rcases r.read t with fault | r' <;> rfl

theorem rest_of_read {r' : BlockReading} (ht : ts[i]? = some t) (h : r.read t = .ok r') :
    r.rest (ts.drop i) = r'.rest (ts.drop (i + 1)) := by
  rw [rest_drop ht, h]
  rfl

theorem read_of_anything (h : r.expected = .anything) : r.read t = r.take t := by rw [read, h]

theorem rest_of_take {r' : BlockReading} (h : r.expected = .anything) (ht : ts[i]? = some t)
    (htake : r.take t = .ok r') : r.rest (ts.drop i) = r'.rest (ts.drop (i + 1)) :=
  rest_of_read ht ((read_of_anything h).trans htake)

/-- A frame around blocks that is open at the end of a stream counts as closed there. -/
theorem finish_enter (h : r.TakesBlocks) {f : BlockFrame}
    (hrow : ∀ inHead rows cells, f ≠ .row inHead rows cells) :
    (r.enter f).finish = (r.add f.block).finish := by
  obtain ⟨blocks, frames, expected⟩ := r
  obtain ⟨rfl, hframes⟩ := h
  match frames, hframes with
  | [], _ => cases f <;> simp_all [enter, add, finish, settled]
  | .quote _ :: _, _ => cases f <;> simp_all [enter, add, finish, settled, BlockFrame.add]
  | .item _ _ _ :: _, _ => cases f <;> simp_all [enter, add, finish, settled, BlockFrame.add]

theorem rest_enter_of_none (h : r.TakesBlocks) (ht : ts[i]? = none) {f : BlockFrame}
    (hrow : ∀ inHead rows cells, f ≠ .row inHead rows cells) :
    (r.enter f).rest (ts.drop i) = (r.add f.block).rest (ts.drop (i + 1)) := by
  rw [rest_of_none ht, rest_of_none (getElem?_succ_eq_none ht), finish_enter h hrow]

/-- Whatever token is taken for an end, the reading goes on behind it. -/
theorem rest_ending (h : r.expected = .anything) (ts : List Token) (i : Nat) :
    ({ r with expected := .ending } : BlockReading).rest (ts.drop i) =
      r.rest (ts.drop (i + 1)) := by
  obtain ⟨blocks, frames, expected⟩ := r
  obtain rfl : expected = .anything := h
  cases ht : ts[i]? with
  | none =>
    rw [rest_of_none ht, rest_of_none (getElem?_succ_eq_none ht)]
    rcases frames with _ | ⟨f, fs⟩
    · rfl
    · cases f <;> rfl
  | some t => exact rest_of_read ht rfl

/-- Content is what is inside the next token, and the token behind that is its end. -/
theorem rest_await (h : r.expected = .anything) (use : ContentUse) (ht : ts[i]? = some t) :
    (r.await use).rest (ts.drop i) = (r.put (inlinesOf t.children) use).rest (ts.drop (i + 2)) := by
  have hread : (r.await use).read t =
      .ok { r.put (inlinesOf t.children) use with expected := .ending } := by
    rw [await, read]
    simp only [put_expected]
  have hput : (r.put (inlinesOf t.children) use).expected = .anything :=
    (congrArg expected (put_expected r _ use r.expected)).trans h
  rw [rest_of_read ht hread, rest_ending hput]

theorem rest_await_of_none (use : ContentUse) (ht : ts[i]? = none) :
    (r.await use).rest (ts.drop i) = .error .endOfStream := by
  rw [rest_of_none ht]
  rfl

end BlockReading

/-- The content behind a token follows the stack, which waits for it. -/
theorem Follows.content {β : Type} {next : List Inline → Except Halt (β × Nat)}
    {next' : β → Nat → Except StreamFault (List Block)} (h : r.expected = .anything)
    (use : ContentUse) (hnext : ∀ content,
      Follows ((r.put content use).rest (ts.drop (i + 2))) next' (next content)) :
    Follows ((r.await use).rest (ts.drop i)) next' (contentAt turns ts i >>= next) := by
  cases ht : ts[i]? with
  | none =>
    rw [contentAt_of_none ht]
    exact BlockReading.rest_await_of_none use ht
  | some t =>
    rw [contentAt_bind ht, BlockReading.rest_await h use ht]
    exact .inside (inlineLoop_follows turns t.children [] 0 []) fun _ ↦ hnext _

/-! ### The loops of blocks -/

/-- What the blocks are gathered for that a loop reads: for the text, for a quote or for an item of
a list that a reading has opened. -/
inductive Holder
  | text
  | quote (around : BlockReading)
  | item (around : BlockReading) (ordered : Bool) (items : List (List Block))

namespace Holder

/-- The kind of token that stops the loop. -/
def stop : Holder → Option TokenKind
  | text => none
  | quote _ => some .quoteClose
  | item _ _ _ => some .itemClose

/-- The reading that has gathered some blocks. -/
def reading (blocks : List Block) : Holder → BlockReading
  | text => { blocks := blocks }
  | quote around => around.enter (.quote blocks)
  | item around ordered items => around.enter (.item ordered items blocks)

/-- What comes of the blocks that have been gathered once the loop has ended at an index. -/
def resume (ts : List Token) (holder : Holder) (blocks : List Block) (j : Nat) :
    Except StreamFault (List Block) :=
  match holder with
  | text => .ok blocks
  | quote around => (around.add (.quote blocks)).rest (ts.drop (j + 1))
  | item around ordered items =>
    (around.enter (.list ordered (items ++ [blocks]))).rest (ts.drop (j + 1))

/-- The reading around takes blocks. -/
def IsSound : Holder → Prop
  | text => True
  | quote around => around.TakesBlocks
  | item around _ _ => around.TakesBlocks

variable {holder : Holder} {blocks : List Block}

theorem takesBlocks (h : holder.IsSound) : (holder.reading blocks).TakesBlocks := by
  cases holder with
  | text => exact ⟨rfl, trivial⟩
  | quote around => exact ⟨h.1, trivial⟩
  | item around ordered items => exact ⟨h.1, trivial⟩

theorem reading_add (b : Block) :
    (holder.reading blocks).add b = holder.reading (blocks ++ [b]) := by
  cases holder <;> rfl

/-- The loop stops at the token that closes the frame of its holder. -/
theorem rest_of_stop (h : holder.IsSound) (ht : ts[i]? = some t)
    (hstop : holder.stop = some t.kind) :
    (holder.reading blocks).rest (ts.drop i) = holder.resume ts blocks i := by
  cases holder with
  | text => cases hstop
  | quote around =>
    have hkind : t.kind = .quoteClose := (Option.some.inj hstop).symm
    exact BlockReading.rest_of_take (r := around.enter (.quote blocks)) h.1 ht (if_pos hkind)
  | item around ordered items =>
    have hkind : t.kind = .itemClose := (Option.some.inj hstop).symm
    exact BlockReading.rest_of_take (r := around.enter (.item ordered items blocks)) h.1 ht
      (if_pos hkind)

/-- The loop ends at the end of the stream as if the frame of its holder were closed there. -/
theorem rest_of_none (h : holder.IsSound) (ht : ts[i]? = none) :
    (holder.reading blocks).rest (ts.drop i) = holder.resume ts blocks i := by
  cases holder with
  | text =>
    rw [BlockReading.rest_of_none ht]
    exact congrArg Except.ok (List.append_nil blocks)
  | quote around => exact BlockReading.rest_enter_of_none h ht (by simp)
  | item around ordered items =>
    -- the item and the list around it are both closed
    rw [reading, resume, BlockReading.rest_of_none ht,
      BlockReading.rest_of_none (getElem?_succ_eq_none ht), BlockReading.finish_enter h (by simp),
      BlockReading.finish_enter h (by simp)]
    rfl

/-- Any other token is taken as it is among blocks. -/
theorem read_eq_takeBlock (h : holder.IsSound) (hstop : holder.stop ≠ some t.kind) :
    (holder.reading blocks).read t = (holder.reading blocks).takeBlock t := by
  rw [BlockReading.read_of_anything (takesBlocks h).1]
  cases holder with
  | text => rfl
  | quote around =>
    exact if_neg fun hkind ↦ hstop (congrArg some hkind.symm)
  | item around ordered items =>
    exact if_neg fun hkind ↦ hstop (congrArg some hkind.symm)

theorem takeBlock_own (hkind : t.kind ≠ .headingOpen ∧ t.kind ≠ .paragraphOpen ∧
      t.kind ≠ .bulletListOpen ∧ t.kind ≠ .orderedListOpen ∧ t.kind ≠ .quoteOpen ∧
      t.kind ≠ .tableOpen) :
    (holder.reading blocks).takeBlock t = .ok (holder.reading (blocks ++ t.ownBlock)) := by
  obtain ⟨kind, tag, text, target, title, children⟩ := t
  cases kind <;> simp_all [BlockReading.takeBlock, Token.ownBlock, reading_add]

end Holder

/-- The loops of blocks follow the stack if they have a number of turns. -/
structure LoopsFollow (turns : Nat) (ts : List Token) : Prop where
  blocks : ∀ holder : Holder, holder.IsSound → ∀ i blocks,
    Follows ((holder.reading blocks).rest (ts.drop i)) (holder.resume ts)
      (blockLoop turns ts holder.stop i blocks)
  items : ∀ r : BlockReading, r.TakesBlocks → ∀ ordered i items,
    Follows ((r.enter (.list ordered items)).rest (ts.drop i))
      (fun items j ↦ (r.add (.list ordered items)).rest (ts.drop (j + 1)))
      (listLoop turns ts ordered i items)
  rows : ∀ r : BlockReading, r.TakesBlocks → ∀ inHead i rows,
    Follows ((r.enter (.table inHead rows)).rest (ts.drop i))
      (fun rows j ↦ (r.add (.table rows)).rest (ts.drop j))
      (tableLoop turns ts inHead i rows)
  cells : ∀ r : BlockReading, r.TakesBlocks → ∀ inHead rows i cells,
    Follows ((r.enter (.row inHead rows cells)).rest (ts.drop i))
      (fun cells j ↦ (r.enter (.table inHead (rows ++ [⟨inHead, cells⟩]))).rest (ts.drop (j + 1)))
      (rowLoop turns ts i cells)

namespace LoopsFollow

open BlockReading (take enter rest_of_take rest_enter_of_none)

variable (h : LoopsFollow turns ts) (hr : r.TakesBlocks)
include h hr

theorem items_succ (ordered : Bool) (i : Nat) (items : List (List Block)) :
    Follows ((r.enter (.list ordered items)).rest (ts.drop i))
      (fun items j ↦ (r.add (.list ordered items)).rest (ts.drop (j + 1)))
      (listLoop (turns + 1) ts ordered i items) := by
  rw [listLoop]
  split
  · next ht => exact rest_enter_of_none hr ht (by simp)
  · next t ht =>
    have hread (r' : BlockReading) (htake : (r.enter (.list ordered items)).take t = .ok r') :=
      rest_of_take (r := r.enter (.list ordered items)) hr.1 ht htake
    split
    · next hclose => exact hread _ (if_pos hclose)
    · next hclose =>
      split
      · next hitem =>
        rw [hread _ ((if_neg hclose).trans (if_pos hitem))]
        exact .call (h.blocks (.item r ordered items) hr (i + 1) []) fun item j ↦
          h.items r hr ordered (j + 1) _
      · next hitem =>
        rw [hread _ ((if_neg hclose).trans (if_neg hitem))]
        exact h.items r hr ordered (i + 1) _

theorem rows_succ (inHead : Bool) (i : Nat) (rows : List TableRow) :
    Follows ((r.enter (.table inHead rows)).rest (ts.drop i))
      (fun rows j ↦ (r.add (.table rows)).rest (ts.drop j))
      (tableLoop (turns + 1) ts inHead i rows) := by
  rw [tableLoop]
  split
  · next ht => exact rest_enter_of_none hr ht (by simp)
  · next t ht =>
    have hread (r' : BlockReading) (htake : (r.enter (.table inHead rows)).take t = .ok r') :=
      rest_of_take (r := r.enter (.table inHead rows)) hr.1 ht htake
    split
    · next hkind =>
      rw [hread (r.enter (.table true rows)) (by simp [take, enter, hkind])]
      exact h.rows r hr true (i + 1) _
    · next hkind =>
      rw [hread (r.enter (.table false rows)) (by simp [take, enter, hkind])]
      exact h.rows r hr false (i + 1) _
    · next hkind =>
      rw [hread (r.enter (.row inHead rows [])) (by simp [take, enter, hkind])]
      exact .call (h.cells r hr inHead rows (i + 1) []) fun cells j ↦ h.rows r hr inHead (j + 1) _
    · next hkind =>
      refine hread _ ?_
      simp [take, enter, hkind, BlockReading.leave, BlockFrame.block]
    · next hopen hclose hrow htable =>
      rw [hread (r.enter (.table inHead rows)) (by simp [take, enter])]
      exact h.rows r hr inHead (i + 1) _

theorem cells_succ (inHead : Bool) (rows : List TableRow) (i : Nat) (cells : List (List Inline)) :
    Follows ((r.enter (.row inHead rows cells)).rest (ts.drop i))
      (fun cells j ↦ (r.enter (.table inHead (rows ++ [⟨inHead, cells⟩]))).rest (ts.drop (j + 1)))
      (rowLoop (turns + 1) ts i cells) := by
  rw [rowLoop]
  cases ht : ts[i]? with
  | none =>
    rw [tokenAt, ht, BlockReading.rest_of_none ht]
    obtain ⟨blocks, frames, expected⟩ := r
    obtain rfl : expected = .anything := hr.1
    rfl
  | some t =>
    have hread (r' : BlockReading) (htake : (r.enter (.row inHead rows cells)).take t = .ok r') :=
      rest_of_take (r := r.enter (.row inHead rows cells)) hr.1 ht htake
    have hcell (hkind : t.kind = .headerCellOpen ∨ t.kind = .cellOpen) :
        Follows ((r.enter (.row inHead rows cells)).rest (ts.drop i))
          (fun cells j ↦
            (r.enter (.table inHead (rows ++ [⟨inHead, cells⟩]))).rest (ts.drop (j + 1))) (do
          let content ← contentAt turns ts (i + 1)
          rowLoop turns ts (i + 3) (cells ++ [content])) := by
      rw [hread ((r.enter (.row inHead rows cells)).await .cell)
        (by rcases hkind with hkind | hkind <;> simp [take, enter, hkind])]
      exact Follows.content (r := r.enter (.row inHead rows cells)) hr.1 .cell fun content ↦
        h.cells r hr inHead rows (i + 3) _
    rw [tokenAt_bind ht]
    split
    · next hkind => exact hread _ (by simp [take, enter, hkind])
    · next hkind => exact hcell (.inl hkind)
    · next hkind => exact hcell (.inr hkind)
    · next hclose hheader hopen =>
      rw [hread (r.enter (.row inHead rows cells)) (by simp [take, enter])]
      exact h.cells r hr inHead rows (i + 1) _

omit hr in
theorem blocks_succ {holder : Holder} (hholder : holder.IsSound) (i : Nat) (blocks : List Block) :
    Follows ((holder.reading blocks).rest (ts.drop i)) (holder.resume ts)
      (blockLoop (turns + 1) ts holder.stop i blocks) := by
  rw [blockLoop]
  split
  · next ht => exact Holder.rest_of_none hholder ht
  · next t ht =>
    split
    · next hstop => exact Holder.rest_of_stop hholder ht hstop
    · next hstop =>
      have hopen : (holder.reading blocks).TakesBlocks := Holder.takesBlocks hholder
      have hon (b : Block) (j : Nat) :
          Follows (((holder.reading blocks).add b).rest (ts.drop j)) (holder.resume ts)
            (blockLoop turns ts holder.stop j (blocks ++ [b])) := by
        rw [Holder.reading_add]
        exact h.blocks holder hholder j _
      rw [BlockReading.rest_drop ht, Holder.read_eq_takeBlock hholder hstop]
      split
      · next hkind =>
        rw [BlockReading.takeBlock, hkind]
        rcases headingLevel t.tag with fault | level
        · rfl
        · exact .content hopen.1 (.heading level) fun content ↦ hon _ (i + 3)
      · next hkind =>
        rw [BlockReading.takeBlock, hkind]
        exact .content hopen.1 .paragraph fun content ↦ hon _ (i + 3)
      · next hkind =>
        rw [BlockReading.takeBlock, hkind]
        exact .call (h.items _ hopen false (i + 1) []) fun items j ↦ hon _ (j + 1)
      · next hkind =>
        rw [BlockReading.takeBlock, hkind]
        exact .call (h.items _ hopen true (i + 1) []) fun items j ↦ hon _ (j + 1)
      · next hkind =>
        rw [BlockReading.takeBlock, hkind]
        exact .call (h.blocks (.quote _) hopen (i + 1) []) fun quoted j ↦ hon _ (j + 1)
      · next hkind =>
        rw [BlockReading.takeBlock, hkind]
        exact .call (h.rows _ hopen false (i + 1) []) fun rows j ↦ hon _ j
      · next hheading hparagraph hbullet hordered hquote htable =>
        rw [Holder.takeBlock_own ⟨hheading, hparagraph, hbullet, hordered, hquote, htable⟩]
        exact h.blocks holder hholder (i + 1) _

end LoopsFollow

/-- The loops of blocks follow the stack on every stream. -/
theorem loopsFollow (turns : Nat) (ts : List Token) : LoopsFollow turns ts := by
  induction turns with
  | zero => constructor <;> intros <;> trivial
  | succ turns ih =>
    exact ⟨fun _ h ↦ ih.blocks_succ h, fun _ h ↦ ih.items_succ h, fun _ h ↦ ih.rows_succ h,
      fun _ h ↦ ih.cells_succ h⟩

/-- Reading a whole text by the loops gives what reading it with the stack gives. -/
theorem blockLoop_follows (turns : Nat) (ts : List Token) :
    Follows (blocksOf ts) (fun blocks _ ↦ .ok blocks) (blockLoop turns ts none 0 []) :=
  (loopsFollow turns ts).blocks .text trivial 0 []

end Block

/-! ### Turns enough -/

section Turns

variable {turns : Nat} {ts : List Token}

/-- With turns enough the loop of inline content gives what the stack gives. -/
theorem inlineLoop_eq (h : tokenCount ts < turns) :
    (inlineLoop turns ts none 0 []).map (·.1) = .ok (inlinesOf ts) := by
  have hprogress := inlineLoop_progresses turns ts none 0 []
  rcases hloop : inlineLoop turns ts none 0 [] with (_ | fault) | ⟨content, j⟩
  · rw [hloop] at hprogress
    exact absurd h (Nat.not_lt.mpr hprogress)
  · rw [hloop] at hprogress
    exact hprogress.elim
  · exact congrArg Except.ok (eq_inlinesOf_of_inlineLoop hloop)

/-- With turns enough the loop of blocks gives what the stack gives, a fault if that is one. -/
theorem blockLoop_eq (h : tokenCount ts < turns) :
    (blockLoop turns ts none 0 []).map (·.1) = (blocksOf ts).mapError .fault := by
  have hprogress := (loopsProgress turns ts).blocks none 0 []
  have hfollows := blockLoop_follows turns ts
  rcases hloop : blockLoop turns ts none 0 [] with (_ | fault) | ⟨blocks, j⟩
  · rw [hloop] at hprogress
    exact absurd h (Nat.not_lt.mpr hprogress)
  · rw [hloop] at hfollows
    have hfault : blocksOf ts = .error fault := hfollows
    rw [hfault]
    rfl
  · rw [hloop] at hfollows
    have hblocks : blocksOf ts = .ok blocks := hfollows
    rw [hblocks]
    rfl

/-- A stream that cannot be read holds the cause of that. -/
theorem isCausedIn_of_blocksOf {fault : StreamFault} (h : blocksOf ts = .error fault) :
    fault.IsCausedIn ts := by
  have hprogress := (loopsProgress (tokenCount ts + 1) ts).blocks none 0 []
  have heq := blockLoop_eq (Nat.lt_succ_self (tokenCount ts))
  rw [h] at heq
  rcases hloop : blockLoop (tokenCount ts + 1) ts none 0 [] with (_ | fault') | ⟨blocks, j⟩
  · rw [hloop] at heq
    cases heq
  · rw [hloop] at heq hprogress
    cases heq
    exact hprogress
  · rw [hloop] at heq
    cases heq

end Turns
end Folio.Markdown
