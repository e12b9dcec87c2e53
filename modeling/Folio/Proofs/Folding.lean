import Folio.Proofs.Fragment
import Folio.Markdown.Assembly

/-!
# Folded emphasis

Reading inline content folds emphasis right inside emphasis into one node where their delimiters add
up to three. What is read is the tree that reading without folding gives, folded at every depth from
the inside out (`inlinesOf_eq_foldedOf`): reading a token and folding commute (`readInline_folded`).
A tree with one to three delimiters on each emphasis and no empty text folds to one in which nothing
is left to fold (`allNormal_foldedOf`), and which nothing tells from the tree it was
(`interchangeable_foldedOf`): it reads the same, shows something if the tree does, and is written the
same in every style and from every state. `folding_keeps_meaning` puts these together for every
stream of tokens.
-/

set_option autoImplicit false
set_option relaxedAutoImplicit false

namespace Folio

open Markdown

/-! ### Folding a tree -/

mutual

/-- A piece of inline content with its emphasis folded at every depth, from the inside out. -/
def Inline.folded : Inline → Inline
  | .emphasis n children => foldedEmphasis n (foldedOf children)
  | .link url title children => .link url title (foldedOf children)
  | .image url title alt => .image url title (foldedOf alt)
  | .text content => .text content
  | .code content => .code content
  | .lineBreak => .lineBreak
  | .unknown => .unknown

/-- Inline content with its emphasis folded at every depth. -/
def foldedOf : List Inline → List Inline
  | [] => []
  | x :: xs => x.folded :: foldedOf xs

end

theorem foldedOf_append (xs ys : List Inline) :
    foldedOf (xs ++ ys) = foldedOf xs ++ foldedOf ys := by
  induction xs with
  | nil => rfl
  | cons x xs ih => rw [List.cons_append, foldedOf, foldedOf, ih, List.cons_append]

/-- Whether emphasis with some delimiters around children is one node taken apart: its only child is
emphasis, and their delimiters add up to three. -/
def isApart (delimiters : Int) : List Inline → Bool
  | [.emphasis inner _] => inner + delimiters = 3
  | _ => false

/-- Emphasis is folded exactly if it is one node taken apart. -/
theorem foldedEmphasis_cases (n : Int) (children : List Inline) :
    (isApart n children = false ∧ foldedEmphasis n children = .emphasis n children) ∨
      ∃ inner grandchildren, children = [.emphasis inner grandchildren] ∧ inner + n = 3 ∧
        foldedEmphasis n children = .emphasis 3 grandchildren := by
  unfold foldedEmphasis
  split
  · next inner grandchildren =>
    by_cases hsum : inner + n = 3
    · exact .inr ⟨inner, grandchildren, rfl, hsum, if_pos hsum⟩
    · exact .inl ⟨by simp [isApart, hsum], if_neg hsum⟩
  · next hother =>
    refine .inl ⟨?_, rfl⟩
    unfold isApart
    split
    · exact absurd rfl (hother _ _)
    · rfl

/-! ### Normal form -/

mutual

/-- Whether no text is empty and all emphasis has one to three delimiters, at every depth. -/
def Inline.isMarked : Inline → Bool
  | .text content => content ≠ ""
  | .emphasis n children => (n = 1 || n = 2 || n = 3) && allMarked children
  | .link _ _ children => allMarked children
  | .image _ _ alt => allMarked alt
  | .code _ | .lineBreak | .unknown => true

/-- Whether inline content has no empty text, and one to three delimiters on all emphasis. -/
def allMarked : List Inline → Bool
  | [] => true
  | x :: xs => x.isMarked && allMarked xs

end

mutual

/-- Whether, besides, no emphasis is one node taken apart, at any depth. -/
def Inline.isNormal : Inline → Bool
  | .text content => content ≠ ""
  | .emphasis n children =>
    (n = 1 || n = 2 || n = 3) && !isApart n children && allNormal children
  | .link _ _ children => allNormal children
  | .image _ _ alt => allNormal alt
  | .code _ | .lineBreak | .unknown => true

/-- Whether inline content is in normal form. -/
def allNormal : List Inline → Bool
  | [] => true
  | x :: xs => x.isNormal && allNormal xs

end

/-- Folding emphasis whose children are in normal form gives emphasis in normal form. -/
theorem isNormal_foldedEmphasis {n : Int} (hn : n = 1 ∨ n = 2 ∨ n = 3) {children : List Inline}
    (h : allNormal children = true) : (foldedEmphasis n children).isNormal = true := by
  rcases foldedEmphasis_cases n children with
    ⟨hapart, hfolded⟩ | ⟨inner, grandchildren, rfl, -, hfolded⟩
  · rw [hfolded]
    simp [Inline.isNormal, hapart, h, hn, or_assoc]
  · have hgrand : allNormal grandchildren = true := by
      simp only [allNormal, Inline.isNormal, Bool.and_eq_true] at h
      exact h.1.2
    -- three delimiters and those of an only child are more than three
    have hapart : isApart 3 grandchildren = false := by
      unfold isApart
      split
      · next m _ =>
        simp only [allNormal, Inline.isNormal, Bool.and_eq_true, Bool.or_eq_true,
          decide_eq_true_eq] at hgrand
        have hm : m + 3 ≠ 3 := by omega
        simp [hm]
      · rfl
    rw [hfolded]
    simp [Inline.isNormal, hapart, hgrand]

mutual

/-- A piece of inline content is in normal form once it is folded. -/
theorem Inline.isNormal_folded : ∀ {x : Inline}, x.isMarked = true → x.folded.isNormal = true
  | .emphasis n children, h => by
    simp only [Inline.isMarked, Bool.and_eq_true, Bool.or_eq_true, decide_eq_true_eq,
      or_assoc] at h
    exact isNormal_foldedEmphasis h.1 (allNormal_foldedOf h.2)
  | .link url title children, h => by
    rw [Inline.isMarked] at h
    exact allNormal_foldedOf h
  | .image url title alt, h => by
    rw [Inline.isMarked] at h
    exact allNormal_foldedOf h
  | .text content, h => h
  | .code content, _ => rfl
  | .lineBreak, _ => rfl
  | .unknown, _ => rfl

/-- Inline content is in normal form once it is folded. -/
theorem allNormal_foldedOf : ∀ {xs : List Inline}, allMarked xs = true →
    allNormal (foldedOf xs) = true
  | [], _ => rfl
  | x :: xs, h => by
    simp only [allMarked, Bool.and_eq_true] at h
    simp only [foldedOf, allNormal, Bool.and_eq_true]
    exact ⟨Inline.isNormal_folded h.1, allNormal_foldedOf h.2⟩

end

/-! ### What folding keeps -/

/-- The order of emphasis within emphasis makes no difference to a style. -/
theorem RunStyle.merge_ofEmphasis_comm (style : RunStyle) (m n : Int) :
    (style.merge (.ofEmphasis m)).merge (.ofEmphasis n) =
      (style.merge (.ofEmphasis n)).merge (.ofEmphasis m) := by
  simp [merge, ofEmphasis, Bool.or_right_comm]

/-- Italic and bold, one within the other, are emphasis with three delimiters. -/
theorem RunStyle.merge_ofEmphasis_three (style : RunStyle) {m n : Int} (hm : 1 ≤ m) (hn : 1 ≤ n)
    (h : m + n = 3) :
    (style.merge (.ofEmphasis n)).merge (.ofEmphasis m) = style.merge (.ofEmphasis 3) := by
  obtain ⟨rfl, rfl⟩ | ⟨rfl, rfl⟩ : m = 1 ∧ n = 2 ∨ m = 2 ∧ n = 1 := by omega
  all_goals simp [merge, ofEmphasis]

theorem plainTextOf_append (xs ys : List Inline) :
    plainTextOf (xs ++ ys) = plainTextOf xs ++ plainTextOf ys := by
  induction xs with
  | nil => simp
  | cons x xs ih => rw [List.cons_append, plainTextOf_cons, plainTextOf_cons, ih, String.append_assoc]

theorem anyVisible_append (xs ys : List Inline) :
    anyVisible (xs ++ ys) = (anyVisible xs || anyVisible ys) := by
  induction xs with
  | nil => rfl
  | cons x xs ih => rw [List.cons_append, anyVisible_cons, anyVisible_cons, ih, Bool.or_assoc]

theorem writeRuns_append (env : Surroundings) (attached : Bool) (xs ys : List Inline)
    (style : RunStyle) : writeRuns env attached (xs ++ ys) style =
      (writeRuns env attached xs style).bind fun _ ↦ writeRuns env attached ys style := by
  induction xs with
  | nil => rw [List.nil_append, writeRuns_nil, Step.done_bind]
  | cons x xs ih => rw [List.cons_append, writeRuns, writeRuns, ih, Step.bind_assoc]

theorem writeItems_append (env : Surroundings) (xs ys : List Inline) (style : RunStyle) :
    writeItems env (xs ++ ys) style =
      (writeItems env xs style).bind fun _ ↦ writeItems env ys style := by
  induction xs with
  | nil => rw [List.nil_append, writeItems_nil, Step.done_bind]
  | cons x xs ih => rw [List.cons_append, writeItems, writeItems, ih, Step.bind_assoc]

/-- Two sequences of inline content that nothing tells apart: they have the same plain text, both
show something or neither does, and writing them leaves the same behind in every style and from every
state, as runs and into a paragraph. -/
structure Interchangeable (xs ys : List Inline) : Prop where
  plainText : plainTextOf xs = plainTextOf ys
  visible : anyVisible xs = anyVisible ys
  runs : ∀ (env : Surroundings) (attached : Bool) (style : RunStyle),
    writeRuns env attached xs style = writeRuns env attached ys style
  items : ∀ (env : Surroundings) (style : RunStyle),
    writeItems env xs style = writeItems env ys style

namespace Interchangeable

variable {xs ys xs' ys' : List Inline}

theorem refl (xs : List Inline) : Interchangeable xs xs :=
  ⟨rfl, rfl, fun _ _ _ ↦ rfl, fun _ _ ↦ rfl⟩

theorem trans {zs : List Inline} (h : Interchangeable xs ys) (hs : Interchangeable ys zs) :
    Interchangeable xs zs where
  plainText := h.plainText.trans hs.plainText
  visible := h.visible.trans hs.visible
  runs env attached style := (h.runs env attached style).trans (hs.runs env attached style)
  items env style := (h.items env style).trans (hs.items env style)

/-- Sequences are interchangeable if what they are put together from is. -/
theorem append (h : Interchangeable xs ys) (h' : Interchangeable xs' ys') :
    Interchangeable (xs ++ xs') (ys ++ ys') where
  plainText := by rw [plainTextOf_append, plainTextOf_append, h.plainText, h'.plainText]
  visible := by rw [anyVisible_append, anyVisible_append, h.visible, h'.visible]
  runs env attached style := by
    rw [writeRuns_append, writeRuns_append, h.runs, h'.runs]
  items env style := by rw [writeItems_append, writeItems_append, h.items, h'.items]

/-- Sequences are interchangeable if their first pieces are, and the rests of them. -/
theorem cons {x y : Inline} (h : Interchangeable [x] [y]) (hs : Interchangeable xs ys) :
    Interchangeable (x :: xs) (y :: ys) := h.append hs

/-- Emphasis around interchangeable content. -/
theorem emphasis (h : Interchangeable xs ys) (n : Int) :
    Interchangeable [.emphasis n xs] [.emphasis n ys] where
  plainText := by simp [Inline.plainText, h.plainText]
  visible := by simp [Inline.isVisible, h.visible]
  runs env attached style := by simp [writeRuns, writeRun, h.runs]
  items env style := by simp [writeItems, writeItem, h.items]

/-- Interchangeable content is a label alike. -/
theorem writeLabel_eq (h : Interchangeable xs ys) (env : Surroundings) (attached : Bool)
    (url : String) (style : RunStyle) :
    writeLabel env attached url xs style = writeLabel env attached url ys style := by
  rw [writeLabel, writeLabel, h.visible, h.runs]

/-- A link around interchangeable content. -/
theorem link (h : Interchangeable xs ys) (url : String) (title : Option String) :
    Interchangeable [.link url title xs] [.link url title ys] where
  plainText := by simp [Inline.plainText, h.plainText]
  visible := by simp [Inline.isVisible, h.visible]
  runs env attached style := by simp [writeRuns, writeRun, h.visible, h.runs]
  items env style := by simp [writeItems, writeItem, writeLink, h.items, h.writeLabel_eq]

/-- An image with interchangeable alternative texts. -/
theorem image (h : Interchangeable xs ys) (url : String) (title : Option String) :
    Interchangeable [.image url title xs] [.image url title ys] where
  plainText := by simp [Inline.plainText, h.plainText]
  visible := by simp [Inline.isVisible]
  runs env attached style := by simp [writeRuns, writeRun, writeImage, altText, h.plainText]
  items env style := by simp [writeItems, writeItem, writeRun, writeImage, altText, h.plainText]

/-- Emphasis within emphasis may be turned inside out. -/
theorem emphasis_comm (m n : Int) (xs : List Inline) :
    Interchangeable [.emphasis m [.emphasis n xs]] [.emphasis n [.emphasis m xs]] where
  plainText := by simp [Inline.plainText]
  visible := by simp [Inline.isVisible]
  runs env attached style := by
    simp [writeRuns, writeRun, RunStyle.merge_ofEmphasis_comm style m n]
  items env style := by
    simp [writeItems, writeItem, RunStyle.merge_ofEmphasis_comm style m n]

/-- Italic right around bold is one node, and so is bold right around italic. -/
theorem emphasis_three {m n : Int} (hm : 1 ≤ m) (hn : 1 ≤ n) (h : m + n = 3) (xs : List Inline) :
    Interchangeable [.emphasis 3 xs] [.emphasis n [.emphasis m xs]] where
  plainText := by simp [Inline.plainText]
  visible := by simp [Inline.isVisible]
  runs env attached style := by
    simp [writeRuns, writeRun, RunStyle.merge_ofEmphasis_three style hm hn h]
  items env style := by
    simp [writeItems, writeItem, RunStyle.merge_ofEmphasis_three style hm hn h]

end Interchangeable

/-- Folding emphasis whose children are in normal form does not change what it stands for. -/
theorem interchangeable_foldedEmphasis {n : Int} (hn : n = 1 ∨ n = 2 ∨ n = 3)
    {children : List Inline} (h : allNormal children = true) :
    Interchangeable [foldedEmphasis n children] [.emphasis n children] := by
  rcases foldedEmphasis_cases n children with
    ⟨-, hfolded⟩ | ⟨inner, grandchildren, rfl, hsum, hfolded⟩
  · rw [hfolded]
    exact .refl _
  · simp only [allNormal, Inline.isNormal, Bool.and_eq_true, Bool.or_eq_true,
      decide_eq_true_eq] at h
    rw [hfolded]
    exact .emphasis_three (by omega) (by omega) hsum grandchildren

mutual

/-- Nothing tells a folded piece of inline content from what it was. -/
theorem Inline.interchangeable_folded : ∀ {x : Inline}, x.isMarked = true →
    Interchangeable [x.folded] [x]
  | .emphasis n children, h => by
    simp only [Inline.isMarked, Bool.and_eq_true, Bool.or_eq_true, decide_eq_true_eq,
      or_assoc] at h
    exact (interchangeable_foldedEmphasis h.1 (allNormal_foldedOf h.2)).trans
      ((interchangeable_foldedOf h.2).emphasis n)
  | .link url title children, h => by
    rw [Inline.isMarked] at h
    exact (interchangeable_foldedOf h).link url title
  | .image url title alt, h => by
    rw [Inline.isMarked] at h
    exact (interchangeable_foldedOf h).image url title
  | .text content, _ => .refl _
  | .code content, _ => .refl _
  | .lineBreak, _ => .refl _
  | .unknown, _ => .refl _

/-- Nothing tells folded inline content from what it was. -/
theorem interchangeable_foldedOf : ∀ {xs : List Inline}, allMarked xs = true →
    Interchangeable (foldedOf xs) xs
  | [], _ => .refl _
  | x :: xs, h => by
    simp only [allMarked, Bool.and_eq_true] at h
    exact (Inline.interchangeable_folded h.1).cons (interchangeable_foldedOf h.2)

end

/-! ### Reading without folding -/

/-- The inline content that a stream of tokens stands for, with all emphasis left as it stands. -/
def unfoldedInlinesOf (ts : List Token) : List Inline :=
  (readInlines .emphasis {} ts).finish .emphasis

namespace Markdown

/-- What stands before a frame. -/
def InlineFrame.before : InlineFrame → List Inline
  | .italic before | .bold before | .link _ _ before => before

/-- A frame with what stands before it folded. -/
def InlineFrame.folded : InlineFrame → InlineFrame
  | .italic before => .italic (foldedOf before)
  | .bold before => .bold (foldedOf before)
  | .link url title before => .link url title (foldedOf before)

/-- A reading with all its content folded. -/
def InlineReading.folded (r : InlineReading) : InlineReading :=
  ⟨foldedOf r.content, r.frames.map InlineFrame.folded⟩

theorem InlineFrame.closing_folded (f : InlineFrame) : f.folded.closing = f.closing := by
  cases f <;> rfl

namespace InlineReading

theorem add_folded (r : InlineReading) (x : Inline) :
    (r.add x).folded = r.folded.add x.folded := by
  simp [folded, add, foldedOf_append, foldedOf]

/-- A frame is closed and folded in either order. -/
theorem closed_folded (content : List Inline) (f : InlineFrame) :
    closed foldedEmphasis (foldedOf content) f.folded = foldedOf (closed .emphasis content f) := by
  cases f <;> simp [closed, InlineFrame.folded, foldedOf_append, foldedOf, Inline.folded]

theorem leave_folded (r : InlineReading) (kind : TokenKind) :
    r.folded.leave foldedEmphasis kind = (r.leave .emphasis kind).folded := by
  obtain ⟨content, _ | ⟨f, fs⟩⟩ := r
  · rfl
  · simp only [folded, leave, List.map_cons, InlineFrame.closing_folded]
    split
    · rw [closed_folded]
    · rfl

theorem finish_folded (r : InlineReading) :
    r.folded.finish foldedEmphasis = foldedOf (r.finish .emphasis) := by
  obtain ⟨content, frames⟩ := r
  induction frames generalizing content with
  | nil => rfl
  | cons f fs ih =>
    simp only [folded, finish, List.map_cons, List.foldl_cons, closed_folded] at ih ⊢
    exact ih _

end InlineReading

mutual

/-- Reading a token and folding commute. -/
theorem readInline_folded : ∀ (t : Token) (r : InlineReading),
    readInline foldedEmphasis r.folded t = (readInline .emphasis r t).folded
  | ⟨kind, tag, content, target, title, children⟩, r => by
    have hchildren : (readInlines foldedEmphasis {} children).finish foldedEmphasis =
        foldedOf ((readInlines .emphasis {} children).finish .emphasis) := by
      rw [← InlineReading.finish_folded, ← readInlines_folded children {}]
      rfl
    cases kind
    case text | specialText =>
      simp only [readInline]
      split
      · rfl
      · rw [InlineReading.add_folded, Inline.folded]
    case softBreak | hardBreak | codeSpan =>
      simp only [readInline, InlineReading.add_folded, Inline.folded]
    case image => simp only [readInline, hchildren, InlineReading.add_folded, Inline.folded]
    case emphasisOpen | strongOpen | linkOpen => rfl
    all_goals exact r.leave_folded _

/-- Reading tokens and folding commute. -/
theorem readInlines_folded : ∀ (ts : List Token) (r : InlineReading),
    readInlines foldedEmphasis r.folded ts = (readInlines .emphasis r ts).folded
  | [], _ => rfl
  | t :: ts, r => by
    rw [readInlines, readInlines, readInline_folded t r, readInlines_folded ts]

end

end Markdown

/-- What is read is what is read without folding, folded. -/
theorem inlinesOf_eq_foldedOf (ts : List Token) :
    inlinesOf ts = foldedOf (unfoldedInlinesOf ts) := by
  rw [unfoldedInlinesOf, ← InlineReading.finish_folded, ← readInlines_folded]
  rfl

/-! ### What is read without folding -/

theorem allMarked_append (xs ys : List Inline) :
    allMarked (xs ++ ys) = (allMarked xs && allMarked ys) := by
  induction xs with
  | nil => rfl
  | cons x xs ih => rw [List.cons_append, allMarked, allMarked, ih, Bool.and_assoc]

namespace Markdown

/-- A reading all of whose content is marked, that before its frames included. -/
structure InlineReading.Marked (r : InlineReading) : Prop where
  content : allMarked r.content = true
  before : ∀ f ∈ r.frames, allMarked f.before = true

namespace InlineReading

variable {r : InlineReading}

theorem Marked.add (h : r.Marked) {x : Inline} (hx : x.isMarked = true) : (r.add x).Marked :=
  ⟨by simp [InlineReading.add, allMarked_append, allMarked, h.content, hx], h.before⟩

/-- Closing a frame makes emphasis with one or two delimiters, or a link. -/
theorem allMarked_closed {content : List Inline} (hcontent : allMarked content = true)
    {f : InlineFrame} (hf : allMarked f.before = true) :
    allMarked (closed .emphasis content f) = true := by
  cases f <;>
    simp_all [closed, InlineFrame.before, allMarked_append, allMarked, Inline.isMarked]

theorem Marked.leave (h : r.Marked) (kind : TokenKind) : (r.leave .emphasis kind).Marked := by
  obtain ⟨content, _ | ⟨f, fs⟩⟩ := r
  · exact h
  · obtain ⟨hf, hfs⟩ := List.forall_mem_cons.mp h.before
    unfold InlineReading.leave
    split
    · exact h
    · next hframes =>
      cases hframes
      split
      · exact ⟨allMarked_closed h.content hf, hfs⟩
      · exact h

/-- A reading that opens another frame. -/
theorem Marked.enter (h : r.Marked) {f : InlineFrame} (hf : f.before = r.content) :
    Marked ⟨[], f :: r.frames⟩ :=
  ⟨rfl, List.forall_mem_cons.mpr ⟨hf ▸ h.content, h.before⟩⟩

theorem Marked.finish (h : r.Marked) : allMarked (r.finish .emphasis) = true := by
  obtain ⟨content, frames⟩ := r
  induction frames generalizing content with
  | nil => exact h.content
  | cons f fs ih =>
    obtain ⟨hf, hfs⟩ := List.forall_mem_cons.mp h.before
    exact ih (closed .emphasis content f) ⟨allMarked_closed h.content hf, hfs⟩

theorem marked_empty : Marked {} := ⟨rfl, by simp⟩

end InlineReading

mutual

/-- A token keeps a reading marked. -/
theorem InlineReading.Marked.read : ∀ (t : Token) {r : InlineReading}, r.Marked →
    (readInline .emphasis r t).Marked
  | ⟨kind, tag, content, target, title, children⟩, r, h => by
    have halt : allMarked ((readInlines .emphasis {} children).finish .emphasis) = true :=
      (InlineReading.Marked.reads children InlineReading.marked_empty).finish
    cases kind
    case text | specialText =>
      simp only [readInline]
      split
      · exact h
      · next hcontent => exact h.add (by simp [Inline.isMarked, hcontent])
    case softBreak | hardBreak | codeSpan => exact h.add rfl
    case image => exact h.add halt
    case emphasisOpen | strongOpen | linkOpen => exact h.enter rfl
    all_goals exact h.leave _

/-- A stream of tokens keeps a reading marked. -/
theorem InlineReading.Marked.reads : ∀ (ts : List Token) {r : InlineReading}, r.Marked →
    (readInlines .emphasis r ts).Marked
  | [], _, h => h
  | t :: ts, _, h => InlineReading.Marked.reads ts (InlineReading.Marked.read t h)

end

end Markdown

/-- What is read without folding has no empty text, and one to three delimiters on all emphasis. -/
theorem allMarked_unfoldedInlinesOf (ts : List Token) : allMarked (unfoldedInlinesOf ts) = true :=
  (InlineReading.Marked.reads ts InlineReading.marked_empty).finish

/-- Whatever stream of tokens is read, what is read is in normal form, and nothing tells it from what
reading without folding gives. More generally, emphasis within emphasis may be turned inside out. -/
theorem folding_keeps_meaning (ts : List Token) :
    allNormal (inlinesOf ts) = true ∧ Interchangeable (inlinesOf ts) (unfoldedInlinesOf ts) ∧
      ∀ (m n : Int) (children : List Inline),
        Interchangeable [.emphasis m [.emphasis n children]]
          [.emphasis n [.emphasis m children]] := by
  have hmarked := allMarked_unfoldedInlinesOf ts
  rw [inlinesOf_eq_foldedOf]
  exact ⟨allNormal_foldedOf hmarked, interchangeable_foldedOf hmarked, Interchangeable.emphasis_comm⟩

/-- Bold right inside italic is read as one node. -/
example : inlinesOf [{ kind := .emphasisOpen }, { kind := .strongOpen },
    { kind := .text, content := "x" }, { kind := .strongClose }, { kind := .emphasisClose }] =
      [.emphasis 3 [.text "x"]] := by rfl

end Folio
