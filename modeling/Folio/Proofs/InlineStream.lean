import Folio.Markdown.Assembly

/-!
# Streams of inline content

Inline content is written down as a stream of tokens (`Inline.stream`): a text, a code span, a break
and an image are one token each, and emphasis and links stand between an opening and a closing
token, where emphasis with three delimiters is italic around bold. Not all content can be told from
its stream: an empty text leaves no trace, and emphasis right inside emphasis may be folded with it.
Content that avoids this is expressible (`allExpressible`), and reading its stream gives it back
(`inlinesOf_stream`).
-/

set_option autoImplicit false
set_option relaxedAutoImplicit false

namespace Folio

open Markdown

/-! ### Writing streams -/

/-- The tokens that open emphasis. -/
def emphasisOpening (delimiters : Int) : List Token :=
  if delimiters = 1 then [{ kind := .emphasisOpen }]
  else if delimiters = 2 then [{ kind := .strongOpen }]
  else [{ kind := .emphasisOpen }, { kind := .strongOpen }]

/-- The tokens that close emphasis. -/
def emphasisClosing (delimiters : Int) : List Token :=
  if delimiters = 1 then [{ kind := .emphasisClose }]
  else if delimiters = 2 then [{ kind := .strongClose }]
  else [{ kind := .strongClose }, { kind := .emphasisClose }]

mutual

/-- The stream of a piece of inline content. -/
def Inline.stream : Inline → List Token
  | .text content => [{ kind := .text, content := content }]
  | .emphasis n children => emphasisOpening n ++ streamOfInlines children ++ emphasisClosing n
  | .code content => [{ kind := .codeSpan, content := content }]
  | .lineBreak => [{ kind := .hardBreak }]
  | .link url title children =>
    { kind := .linkOpen, target := url, title := title } ::
      (streamOfInlines children ++ [{ kind := .linkClose }])
  | .image url title alt =>
    [{ kind := .image, target := url, title := title, children := streamOfInlines alt }]
  | .unknown => []

/-- The stream of inline content. -/
def streamOfInlines : List Inline → List Token
  | [] => []
  | x :: xs => x.stream ++ streamOfInlines xs

end

/-! ### Content that its stream tells -/

/-- Whether emphasis with some delimiters around children is read as other emphasis: its only child
is emphasis, and their delimiters add up to three, or are three around one. -/
def isFolded (delimiters : Int) : List Inline → Bool
  | [.emphasis inner _] => inner + delimiters = 3 || (delimiters = 3 && inner = 1)
  | _ => false

mutual

/-- Whether a piece of inline content can be told from its stream: no text is empty, emphasis has
one to three delimiters and is not folded, and nothing is unknown. -/
def Inline.isExpressible : Inline → Bool
  | .text content => content ≠ ""
  | .emphasis n children =>
    (n = 1 || n = 2 || n = 3) && !isFolded n children && allExpressible children
  | .code _ => true
  | .lineBreak => true
  | .link _ _ children => allExpressible children
  | .image _ _ alt => allExpressible alt
  | .unknown => false

/-- Whether inline content can be told from its stream. -/
def allExpressible : List Inline → Bool
  | [] => true
  | x :: xs => x.isExpressible && allExpressible xs

end

/-! ### Reading streams -/

/-- Tokens are read one after the other. -/
theorem readInlines_append (emphasis : Int → List Inline → Inline) (r : InlineReading)
    (ts us : List Token) : readInlines emphasis r (ts ++ us) =
      readInlines emphasis (readInlines emphasis r ts) us := by
  induction ts generalizing r with
  | nil => rfl
  | cons t ts ih => exact ih _

/-- Emphasis that is not folded is made as it is. -/
theorem foldedEmphasis_of_not_isFolded {n : Int} {children : List Inline}
    (h : isFolded n children = false) : foldedEmphasis n children = .emphasis n children := by
  unfold foldedEmphasis
  split
  · next inner grandchildren =>
    simp only [isFolded, Bool.or_eq_false_iff, decide_eq_false_iff_not] at h
    rw [if_neg h.1]
  · rfl

/-- Emphasis with three delimiters that is not folded is what italic around bold is read as. -/
theorem foldedEmphasis_three {children : List Inline} (h : isFolded 3 children = false) :
    foldedEmphasis 1 [foldedEmphasis 2 children] = .emphasis 3 children := by
  have hbold : foldedEmphasis 2 children = .emphasis 2 children := by
    refine foldedEmphasis_of_not_isFolded ?_
    unfold isFolded at h ⊢
    split
    · next inner grandchildren =>
      have hinner : inner ≠ 1 := fun hone ↦ by simp [hone] at h
      have hsum : inner + 2 ≠ 3 := by omega
      simp [hsum]
    · rfl
  rw [hbold]
  rfl

/-- Reading what stands between the tokens that open and close emphasis. -/
theorem readInlines_emphasis {n : Int} (hn : n = 1 ∨ n = 2 ∨ n = 3) {children : List Inline}
    (hfolded : isFolded n children = false) {ts : List Token}
    (hts : ∀ r, readInlines foldedEmphasis r ts = ⟨r.content ++ children, r.frames⟩)
    (r : InlineReading) :
    readInlines foldedEmphasis r (emphasisOpening n ++ ts ++ emphasisClosing n) =
      r.add (.emphasis n children) := by
  rw [readInlines_append, readInlines_append, hts]
  rcases hn with rfl | rfl | rfl
  · simp [emphasisOpening, emphasisClosing, readInlines, readInline, InlineReading.leave,
      InlineReading.closed, InlineFrame.closing, InlineReading.add,
      foldedEmphasis_of_not_isFolded hfolded]
  · simp [emphasisOpening, emphasisClosing, readInlines, readInline, InlineReading.leave,
      InlineReading.closed, InlineFrame.closing, InlineReading.add,
      foldedEmphasis_of_not_isFolded hfolded]
  · simp [emphasisOpening, emphasisClosing, readInlines, readInline, InlineReading.leave,
      InlineReading.closed, InlineFrame.closing, InlineReading.add, foldedEmphasis_three hfolded]

mutual

/-- Reading the stream of a piece of expressible content adds that piece. -/
theorem Inline.read_stream : ∀ {x : Inline}, x.isExpressible = true → ∀ r : InlineReading,
    readInlines foldedEmphasis r x.stream = r.add x
  | .text content, h, r => by
    have hne : content ≠ "" := by simpa [Inline.isExpressible] using h
    simp [Inline.stream, readInlines, readInline, hne]
  | .emphasis n children, h, r => by
    simp only [Inline.isExpressible, Bool.and_eq_true, Bool.or_eq_true, decide_eq_true_eq,
      Bool.not_eq_true', or_assoc] at h
    exact readInlines_emphasis h.1.1 h.1.2 (read_streamOfInlines h.2) r
  | .code content, _, r => by simp [Inline.stream, readInlines, readInline]
  | .lineBreak, _, r => by simp [Inline.stream, readInlines, readInline]
  | .link url title children, h, r => by
    rw [Inline.isExpressible] at h
    simp [Inline.stream, readInlines, readInline, readInlines_append, read_streamOfInlines h,
      InlineReading.leave, InlineFrame.closing, InlineReading.closed, InlineReading.add]
  | .image url title alt, h, r => by
    rw [Inline.isExpressible] at h
    simp [Inline.stream, readInlines, readInline, read_streamOfInlines h, InlineReading.finish]
  | .unknown, h, _ => by simp [Inline.isExpressible] at h

/-- Reading the stream of expressible content adds that content. -/
theorem read_streamOfInlines : ∀ {xs : List Inline}, allExpressible xs = true →
    ∀ r : InlineReading,
      readInlines foldedEmphasis r (streamOfInlines xs) = ⟨r.content ++ xs, r.frames⟩
  | [], _, r => by simp [streamOfInlines, readInlines]
  | x :: xs, h, r => by
    simp only [allExpressible, Bool.and_eq_true] at h
    rw [streamOfInlines, readInlines_append, Inline.read_stream h.1, read_streamOfInlines h.2]
    simp [InlineReading.add]

end

/-- Reading the stream of expressible content gives the content back. -/
theorem inlinesOf_stream {xs : List Inline} (h : allExpressible xs = true) :
    inlinesOf (streamOfInlines xs) = xs := by
  rw [inlinesOf, read_streamOfInlines h]
  rfl

end Folio
