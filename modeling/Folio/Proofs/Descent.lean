import Folio.Markdown.Assembly

/-!
# Descending into a stream

The loops by which a stream of tokens is read down into what its tokens open: `inlineLoop` for
inline content, `blockLoop` for blocks, `listLoop` for the items of a list, `tableLoop` and
`rowLoop` for tables. Each walks along the stream by an index, which it hands to the loop that it
calls and takes back from it, and which may come to lie behind the end. A loop has a number of
turns, and calls other loops with one less.

Whatever the stream, a loop that has more turns than there are tokens from its index on, those in
tokens counted, comes to an end, the index that it gives back is not before the one that it was
given, and a fault has its cause in the stream (`Progresses`, `inlineLoop_progresses`,
`LoopsProgress`, `loopsProgress`).
-/

set_option autoImplicit false
set_option relaxedAutoImplicit false

namespace Folio.Markdown

/-! ### The loops -/

/-- Why a loop gives nothing back: it has used up its turns, or the stream cannot be read. -/
inductive Halt
  | outOfTurns
  | fault (fault : StreamFault)
  deriving DecidableEq, Repr

/-- The token at an index, where there has to be one. -/
def tokenAt (ts : List Token) (i : Nat) : Except Halt Token :=
  match ts[i]? with
  | some t => .ok t
  | none => .error (.fault .endOfStream)

/-- The inline content of a token that opens nothing and has no content inside. -/
def Token.ownInline (t : Token) : List Inline :=
  match t.kind with
  | .text | .specialText => if t.content = "" then [] else [.text t.content]
  | .softBreak => [.text " "]
  | .hardBreak => [.lineBreak]
  | .codeSpan => [.code t.content]
  | _ => []

/-- Reads inline content from an index on, up to a token that closes it. -/
def inlineLoop : (turns : Nat) → (ts : List Token) → (closing : Option TokenKind) → (i : Nat) →
    (content : List Inline) → Except Halt (List Inline × Nat)
  | 0, _, _, _, _ => .error .outOfTurns
  | turns + 1, ts, closing, i, content =>
    match ts[i]? with
    | none => .ok (content, i)
    | some t =>
      if closing = some t.kind then .ok (content, i + 1)
      else
        match t.kind with
        | .emphasisOpen => do
          let (children, j) ← inlineLoop turns ts (some .emphasisClose) (i + 1) []
          inlineLoop turns ts closing j (content ++ [foldedEmphasis 1 children])
        | .strongOpen => do
          let (children, j) ← inlineLoop turns ts (some .strongClose) (i + 1) []
          inlineLoop turns ts closing j (content ++ [foldedEmphasis 2 children])
        | .linkOpen => do
          let (children, j) ← inlineLoop turns ts (some .linkClose) (i + 1) []
          inlineLoop turns ts closing j (content ++ [.link t.target t.title children])
        | .image => do
          let (alt, _) ← inlineLoop turns t.children none 0 []
          inlineLoop turns ts closing (i + 1) (content ++ [.image t.target t.title alt])
        | _ => inlineLoop turns ts closing (i + 1) (content ++ t.ownInline)

/-- The content inside the token at an index. -/
def contentAt (turns : Nat) (ts : List Token) (i : Nat) : Except Halt (List Inline) := do
  let t ← tokenAt ts i
  let (content, _) ← inlineLoop turns t.children none 0 []
  return content

/-- The block of a token that opens nothing. -/
def Token.ownBlock (t : Token) : List Block :=
  match t.kind with
  | .fence | .indentedCode => [.code (codeLines t.content)]
  | .rule => [.rule]
  | _ => []

/-- Reads the cells of a row from an index on, up to the token that closes the row. -/
def rowLoop : (turns : Nat) → (ts : List Token) → (i : Nat) → (cells : List (List Inline)) →
    Except Halt (List (List Inline) × Nat)
  | 0, _, _, _ => .error .outOfTurns
  | turns + 1, ts, i, cells => do
    let t ← tokenAt ts i
    match t.kind with
    | .rowClose => .ok (cells, i)
    | .headerCellOpen | .cellOpen => do
      let content ← contentAt turns ts (i + 1)
      rowLoop turns ts (i + 3) (cells ++ [content])
    | _ => rowLoop turns ts (i + 1) cells

/-- Reads the rows of a table from an index on, up to the token that closes it and past that. -/
def tableLoop : (turns : Nat) → (ts : List Token) → (inHead : Bool) → (i : Nat) →
    (rows : List TableRow) → Except Halt (List TableRow × Nat)
  | 0, _, _, _, _ => .error .outOfTurns
  | turns + 1, ts, inHead, i, rows =>
    match ts[i]? with
    | none => .ok (rows, i + 1)
    | some t =>
      match t.kind with
      | .headOpen => tableLoop turns ts true (i + 1) rows
      | .headClose => tableLoop turns ts false (i + 1) rows
      | .rowOpen => do
        let (cells, j) ← rowLoop turns ts (i + 1) []
        tableLoop turns ts inHead (j + 1) (rows ++ [⟨inHead, cells⟩])
      | .tableClose => .ok (rows, i + 1)
      | _ => tableLoop turns ts inHead (i + 1) rows

mutual

/-- Reads blocks from an index on, up to a token that stops them. -/
def blockLoop : (turns : Nat) → (ts : List Token) → (stop : Option TokenKind) → (i : Nat) →
    (blocks : List Block) → Except Halt (List Block × Nat)
  | 0, _, _, _, _ => .error .outOfTurns
  | turns + 1, ts, stop, i, blocks =>
    match ts[i]? with
    | none => .ok (blocks, i)
    | some t =>
      if stop = some t.kind then .ok (blocks, i)
      else
        match t.kind with
        | .headingOpen => do
          let level ← (headingLevel t.tag).mapError .fault
          let content ← contentAt turns ts (i + 1)
          blockLoop turns ts stop (i + 3) (blocks ++ [.heading level content])
        | .paragraphOpen => do
          let content ← contentAt turns ts (i + 1)
          blockLoop turns ts stop (i + 3) (blocks ++ [.paragraph content])
        | .bulletListOpen => do
          let (items, j) ← listLoop turns ts false (i + 1) []
          blockLoop turns ts stop (j + 1) (blocks ++ [.list false items])
        | .orderedListOpen => do
          let (items, j) ← listLoop turns ts true (i + 1) []
          blockLoop turns ts stop (j + 1) (blocks ++ [.list true items])
        | .quoteOpen => do
          let (quoted, j) ← blockLoop turns ts (some .quoteClose) (i + 1) []
          blockLoop turns ts stop (j + 1) (blocks ++ [.quote quoted])
        | .tableOpen => do
          let (rows, j) ← tableLoop turns ts false (i + 1) []
          blockLoop turns ts stop j (blocks ++ [.table rows])
        | _ => blockLoop turns ts stop (i + 1) (blocks ++ t.ownBlock)

/-- Reads the items of a list from an index on, up to the token that closes the list. -/
def listLoop : (turns : Nat) → (ts : List Token) → (ordered : Bool) → (i : Nat) →
    (items : List (List Block)) → Except Halt (List (List Block) × Nat)
  | 0, _, _, _, _ => .error .outOfTurns
  | turns + 1, ts, ordered, i, items =>
    match ts[i]? with
    | none => .ok (items, i)
    | some t =>
      if t.kind = BlockReading.listClosing ordered then .ok (items, i)
      else if t.kind = .itemOpen then do
        let (item, j) ← blockLoop turns ts (some .itemClose) (i + 1) []
        listLoop turns ts ordered (j + 1) (items ++ [item])
      else listLoop turns ts ordered (i + 1) items

end

section Access

variable {α : Type} {turns i : Nat} {ts : List Token} {t : Token}

theorem tokenAt_bind (ht : ts[i]? = some t) (next : Token → Except Halt α) :
    tokenAt ts i >>= next = next t := by
  rw [tokenAt, ht]
  rfl

theorem contentAt_of_none (ht : ts[i]? = none) :
    contentAt turns ts i = .error (.fault .endOfStream) := by
  rw [contentAt, tokenAt, ht]
  rfl

theorem contentAt_bind (ht : ts[i]? = some t) (next : List Inline → Except Halt α) :
    contentAt turns ts i >>= next =
      inlineLoop turns t.children none 0 [] >>= fun (content, _) ↦ next content := by
  rw [contentAt, tokenAt_bind ht]
  simp

end Access

/-! ### Counting tokens -/

mutual

/-- The number of tokens that a token is, those inside it counted. -/
def Token.count : Token → Nat
  | ⟨_, _, _, _, _, children⟩ => tokenCount children + 1

/-- The number of tokens of a stream, those inside other tokens counted. -/
def tokenCount : List Token → Nat
  | [] => 0
  | t :: ts => t.count + tokenCount ts

end

section Count

variable {ts : List Token} {t : Token} {i j : Nat}

theorem count_eq (t : Token) : t.count = tokenCount t.children + 1 := by
  cases t
  rfl

theorem drop_eq_cons (h : ts[i]? = some t) : ts.drop i = t :: ts.drop (i + 1) := by
  obtain ⟨hi, rfl⟩ := List.getElem?_eq_some_iff.mp h
  exact List.drop_eq_getElem_cons hi

theorem tokenCount_drop (h : ts[i]? = some t) :
    tokenCount (ts.drop i) = tokenCount t.children + 1 + tokenCount (ts.drop (i + 1)) := by
  rw [drop_eq_cons h, tokenCount, count_eq]

/-- The further on in a stream, the fewer tokens are left. -/
theorem tokenCount_drop_le (h : i ≤ j) : tokenCount (ts.drop j) ≤ tokenCount (ts.drop i) := by
  induction h with
  | refl => exact Nat.le_refl _
  | @step k _ ih =>
    refine Nat.le_trans ?_ ih
    cases ht : ts[k]? with
    | none =>
      rw [List.getElem?_eq_none_iff] at ht
      have hnone : ts.drop (k + 1) = ts.drop k := by
        rw [List.drop_eq_nil_of_le ht, List.drop_eq_nil_of_le (Nat.le_succ_of_le ht)]
      exact Nat.le_of_eq (congrArg tokenCount hnone)
    | some t =>
      rw [tokenCount_drop ht]
      exact Nat.le_add_left _ _

end Count

/-! ### Progress -/

section Progress

variable {α β : Type} {turns i j k : Nat} {ts : List Token} {t : Token}
  {MayFail MayFailInside : StreamFault → Prop}

/-- A loop has made progress: it gives back an index that is not before the one that it was given,
or has had no more turns than there were tokens left, or has come to a fault that may be. -/
def Progresses (turns : Nat) (ts : List Token) (i : Nat) (MayFail : StreamFault → Prop) :
    Except Halt (α × Nat) → Prop
  | .ok (_, j) => i ≤ j
  | .error .outOfTurns => turns ≤ tokenCount (ts.drop i)
  | .error (.fault fault) => MayFail fault

namespace Progresses

/-- A loop goes on from a later index with a turn less. -/
theorem later {result : Except Halt (α × Nat)} (ht : ts[i]? = some t) (hij : i < j)
    (h : Progresses turns ts j MayFail result) : Progresses (turns + 1) ts i MayFail result := by
  rcases result with (_ | fault) | ⟨a, k⟩
  · have hleft : tokenCount (ts.drop j) ≤ tokenCount (ts.drop (i + 1)) := tokenCount_drop_le hij
    have hhere := tokenCount_drop ht
    have hturns : turns ≤ tokenCount (ts.drop j) := h
    show turns + 1 ≤ tokenCount (ts.drop i)
    omega
  · exact h
  · exact Nat.le_trans (Nat.le_of_lt hij) h

/-- A loop calls another one for what stands behind a token, and goes on where that one ends. -/
theorem call {result : Except Halt (α × Nat)} {next : α × Nat → Except Halt (β × Nat)}
    (ht : ts[i]? = some t) (h : Progresses turns ts (i + 1) MayFailInside result)
    (hfail : ∀ fault, MayFailInside fault → MayFail fault)
    (hnext : ∀ a j, i < j → Progresses (turns + 1) ts i MayFail (next (a, j))) :
    Progresses (turns + 1) ts i MayFail (result >>= next) := by
  rcases result with (_ | fault) | ⟨a, j⟩
  · exact @later α turns i (i + 1) ts t MayFail (.error .outOfTurns) ht i.lt_succ_self h
  · exact hfail fault h
  · exact hnext a j h

/-- A loop calls another one for what is inside a token, and goes on. -/
theorem inside {result : Except Halt (α × Nat)} {next : α × Nat → Except Halt (β × Nat)}
    (ht : ts[k]? = some t) (hik : i ≤ k)
    (h : Progresses turns t.children 0 (fun _ ↦ False) result)
    (hnext : ∀ a j, Progresses (turns + 1) ts i MayFail (next (a, j))) :
    Progresses (turns + 1) ts i MayFail (result >>= next) := by
  rcases result with (_ | fault) | ⟨a, j⟩
  · have hleft : tokenCount (ts.drop k) ≤ tokenCount (ts.drop i) := tokenCount_drop_le hik
    have hhere := tokenCount_drop ht
    have hturns : turns ≤ tokenCount t.children := h
    show turns + 1 ≤ tokenCount (ts.drop i)
    omega
  · exact h.elim
  · exact hnext a j

end Progresses

/-- Reading inline content makes progress, and comes to no fault. -/
theorem inlineLoop_progresses (turns : Nat) (ts : List Token) (closing : Option TokenKind) (i : Nat)
    (content : List Inline) :
    Progresses turns ts i (fun _ ↦ False) (inlineLoop turns ts closing i content) := by
  induction turns generalizing ts closing i content with
  | zero => exact Nat.zero_le _
  | succ turns ih =>
    rw [inlineLoop]
    split
    · exact i.le_refl
    · next t ht =>
      split
      · exact i.le_succ
      · have hcall (closing' : Option TokenKind) (emphasis : List Inline → Inline) :
            Progresses (turns + 1) ts i (fun _ ↦ False) (do
              let (children, j) ← inlineLoop turns ts closing' (i + 1) []
              inlineLoop turns ts closing j (content ++ [emphasis children])) :=
          .call ht (ih ts closing' (i + 1) []) (fun _ h ↦ h) fun children j hj ↦
            .later ht hj (ih ts closing j _)
        split
        · exact hcall (some .emphasisClose) (foldedEmphasis 1)
        · exact hcall (some .strongClose) (foldedEmphasis 2)
        · exact hcall (some .linkClose) (.link t.target t.title)
        · exact .inside ht i.le_refl (ih t.children none 0 []) fun alt _ ↦
            .later ht i.lt_succ_self (ih ts closing (i + 1) _)
        · exact .later ht i.lt_succ_self (ih ts closing (i + 1) _)

/-! ### Causes of faults -/

/-- A token is the cause of a fault: it needs other tokens behind it, or is a heading without a
level. -/
def StreamFault.IsCausedBy (t : Token) : StreamFault → Prop
  | endOfStream => t.kind = .headingOpen ∨ t.kind = .paragraphOpen ∨ t.kind = .rowOpen
  | shortTag => t.kind = .headingOpen ∧ t.tag.toList.length < 2
  | badLevel c => t.kind = .headingOpen ∧ t.tag.toList[1]? = some c ∧ decimalValue? c = none

/-- A fault is caused by a token of the stream. -/
def StreamFault.IsCausedIn (ts : List Token) (fault : StreamFault) : Prop :=
  ∃ t ∈ ts, fault.IsCausedBy t

theorem isCausedIn_of_getElem? {fault : StreamFault} (ht : ts[i]? = some t)
    (h : fault.IsCausedBy t) : fault.IsCausedIn ts :=
  ⟨t, List.mem_of_getElem? ht, h⟩

/-- If the level of a heading cannot be told, its tag is the cause. -/
theorem isCausedBy_of_headingLevel {fault : StreamFault} (hkind : t.kind = .headingOpen)
    (h : headingLevel t.tag = .error fault) : fault.IsCausedBy t := by
  unfold headingLevel at h
  split at h
  · next c rest htag =>
    split at h
    · cases h
    · next hvalue =>
      cases h
      exact ⟨hkind, by rw [htag]; rfl, hvalue⟩
  · next hshort =>
    cases h
    refine ⟨hkind, ?_⟩
    rcases htag : t.tag.toList with _ | ⟨first, _ | ⟨second, rest⟩⟩
    · exact Nat.zero_lt_two
    · exact Nat.one_lt_two
    · exact absurd htag (hshort first second rest)

/-! ### Progress of the loops of blocks -/

/-- Content behind a token makes progress; it may only be that there is no token that holds it. -/
theorem Progresses.content {next : List Inline → Except Halt (β × Nat)} (hik : i ≤ k)
    (hend : MayFail .endOfStream)
    (hnext : ∀ content, Progresses (turns + 1) ts i MayFail (next content)) :
    Progresses (turns + 1) ts i MayFail (contentAt turns ts k >>= next) := by
  cases ht : ts[k]? with
  | none =>
    rw [contentAt_of_none ht]
    exact hend
  | some t =>
    rw [contentAt_bind ht]
    exact .inside ht hik (inlineLoop_progresses turns t.children none 0 [])
      fun content _ ↦ hnext content

/-- The loops of blocks make progress if they have a number of turns. -/
structure LoopsProgress (turns : Nat) (ts : List Token) : Prop where
  blocks : ∀ stop i blocks,
    Progresses turns ts i (·.IsCausedIn ts) (blockLoop turns ts stop i blocks)
  items : ∀ ordered i items,
    Progresses turns ts i (·.IsCausedIn ts) (listLoop turns ts ordered i items)
  rows : ∀ inHead i rows,
    Progresses turns ts i (·.IsCausedIn ts) (tableLoop turns ts inHead i rows)
  cells : ∀ i cells, Progresses turns ts i (· = .endOfStream) (rowLoop turns ts i cells)

namespace LoopsProgress

variable (h : LoopsProgress turns ts)
include h

theorem cells_succ (i : Nat) (cells : List (List Inline)) :
    Progresses (turns + 1) ts i (· = .endOfStream) (rowLoop (turns + 1) ts i cells) := by
  rw [rowLoop]
  cases ht : ts[i]? with
  | none =>
    rw [tokenAt, ht]
    rfl
  | some t =>
    have hcell : Progresses (turns + 1) ts i (· = .endOfStream) (do
        let content ← contentAt turns ts (i + 1)
        rowLoop turns ts (i + 3) (cells ++ [content])) :=
      .content i.le_succ rfl fun content ↦ .later ht (by omega) (h.cells (i + 3) _)
    rw [tokenAt_bind ht]
    split
    · exact i.le_refl
    · exact hcell
    · exact hcell
    · exact .later ht i.lt_succ_self (h.cells (i + 1) _)

theorem rows_succ (inHead : Bool) (i : Nat) (rows : List TableRow) :
    Progresses (turns + 1) ts i (·.IsCausedIn ts) (tableLoop (turns + 1) ts inHead i rows) := by
  rw [tableLoop]
  split
  · exact i.le_succ
  · next t ht =>
    split
    · exact .later ht i.lt_succ_self (h.rows true (i + 1) _)
    · exact .later ht i.lt_succ_self (h.rows false (i + 1) _)
    · next hkind =>
      refine .call ht (h.cells (i + 1) []) (fun fault hfault ↦ ?_) fun cells j hj ↦
        .later ht (Nat.lt_succ_of_lt hj) (h.rows inHead (j + 1) _)
      subst hfault
      exact isCausedIn_of_getElem? ht (.inr (.inr hkind))
    · exact i.le_succ
    · exact .later ht i.lt_succ_self (h.rows inHead (i + 1) _)

theorem items_succ (ordered : Bool) (i : Nat) (items : List (List Block)) :
    Progresses (turns + 1) ts i (·.IsCausedIn ts) (listLoop (turns + 1) ts ordered i items) := by
  rw [listLoop]
  split
  · exact i.le_refl
  · next t ht =>
    split
    · exact i.le_refl
    · split
      · exact .call ht (h.blocks (some .itemClose) (i + 1) []) (fun _ hfault ↦ hfault)
          fun item j hj ↦ .later ht (Nat.lt_succ_of_lt hj) (h.items ordered (j + 1) _)
      · exact .later ht i.lt_succ_self (h.items ordered (i + 1) _)

theorem blocks_succ (stop : Option TokenKind) (i : Nat) (blocks : List Block) :
    Progresses (turns + 1) ts i (·.IsCausedIn ts) (blockLoop (turns + 1) ts stop i blocks) := by
  rw [blockLoop]
  split
  · exact i.le_refl
  · next t ht =>
    split
    · exact i.le_refl
    · have hon {j : Nat} (hj : i < j) (more : List Block) :
          Progresses (turns + 1) ts i (·.IsCausedIn ts) (blockLoop turns ts stop j more) :=
        .later ht hj (h.blocks stop j more)
      have hlist (ordered : Bool) : Progresses (turns + 1) ts i (·.IsCausedIn ts) (do
          let (items, j) ← listLoop turns ts ordered (i + 1) []
          blockLoop turns ts stop (j + 1) (blocks ++ [.list ordered items])) :=
        .call ht (h.items ordered (i + 1) []) (fun _ hfault ↦ hfault) fun items j hj ↦
          hon (Nat.lt_succ_of_lt hj) _
      split
      · next hkind =>
        cases hlevel : headingLevel t.tag with
        | error fault => exact isCausedIn_of_getElem? ht (isCausedBy_of_headingLevel hkind hlevel)
        | ok level =>
          have hend : StreamFault.endOfStream.IsCausedIn ts :=
            isCausedIn_of_getElem? ht (.inl hkind)
          exact .content i.le_succ hend fun content ↦ hon (by omega) _
      · next hkind =>
        have hend : StreamFault.endOfStream.IsCausedIn ts :=
          isCausedIn_of_getElem? ht (.inr (.inl hkind))
        exact .content i.le_succ hend fun content ↦ hon (by omega) _
      · exact hlist false
      · exact hlist true
      · exact .call ht (h.blocks (some .quoteClose) (i + 1) []) (fun _ hfault ↦ hfault)
          fun quoted j hj ↦ hon (Nat.lt_succ_of_lt hj) _
      · exact .call ht (h.rows false (i + 1) []) (fun _ hfault ↦ hfault) fun rows j hj ↦ hon hj _
      · exact hon i.lt_succ_self _

end LoopsProgress

/-- The loops of blocks make progress on every stream. -/
theorem loopsProgress (turns : Nat) (ts : List Token) : LoopsProgress turns ts := by
  induction turns with
  | zero => constructor <;> intros <;> exact Nat.zero_le _
  | succ turns ih => exact ⟨ih.blocks_succ, ih.items_succ, ih.rows_succ, ih.cells_succ⟩

end Progress

end Folio.Markdown
