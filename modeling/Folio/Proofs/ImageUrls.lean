import Folio.Proofs.References
import Mathlib.Data.List.Fold
import Mathlib.Data.List.MinMax

/-!
# The images of a text

The sources of the images of a text in document order (`imageUrlsOf`), by a walk through the tree
that knows nothing of how the text is written. Writing names the same sources in the same order
(`sourcesOf_eq`): a table that is filled up with empty cells has no image that its rows do not have,
and the label of a link is given up for its target only if it has none.
-/

set_option autoImplicit false
set_option relaxedAutoImplicit false

namespace Folio

/-! ### A walk through the tree -/

mutual

/-- The sources of the images in a piece of inline content, without those in the alternative text of
an image and without blank ones. -/
def Inline.imageUrls : Inline → List String
  | .emphasis _ children => imageUrlsIn children
  | .link _ _ children => imageUrlsIn children
  | .image url _ _ => if isBlankText url then [] else [url]
  | _ => []

/-- The sources of the images in inline content. -/
def imageUrlsIn : List Inline → List String
  | [] => []
  | x :: xs => x.imageUrls ++ imageUrlsIn xs

end

mutual

/-- The sources of the images in a block, in document order. -/
def Block.imageUrls : Block → List String
  | .heading _ content => imageUrlsIn content
  | .paragraph content => imageUrlsIn content
  | .list _ items => imageUrlsOfItems items
  | .table rows => rows.flatMap fun row ↦ row.cells.flatMap imageUrlsIn
  | .quote blocks => imageUrlsOf blocks
  | _ => []

/-- The sources of the images in a text, in document order. -/
def imageUrlsOf : List Block → List String
  | [] => []
  | b :: bs => b.imageUrls ++ imageUrlsOf bs

/-- The sources of the images in the items of a list. -/
def imageUrlsOfItems : List (List Block) → List String
  | [] => []
  | item :: items => imageUrlsOf item ++ imageUrlsOfItems items

end

/-! ### Inline content -/

mutual

theorem Inline.imageUrls_of_invisible : ∀ x : Inline, x.isVisible = false → x.imageUrls = []
  | .text _, _ => rfl
  | .code _, _ => rfl
  | .lineBreak, _ => rfl
  | .unknown, _ => rfl
  | .emphasis _ children, h => imageUrlsIn_of_invisible children h
  | .link _ _ children, h => imageUrlsIn_of_invisible children h
  | .image _ _ _, h => absurd h (by simp [Inline.isVisible])

/-- Content that shows nothing has no images. -/
theorem imageUrlsIn_of_invisible : ∀ xs : List Inline, anyVisible xs = false → imageUrlsIn xs = []
  | [], _ => rfl
  | x :: xs, h => by
    obtain ⟨hx, hxs⟩ := Bool.or_eq_false_iff.mp h
    rw [imageUrlsIn, x.imageUrls_of_invisible hx, imageUrlsIn_of_invisible xs hxs, List.append_nil]

end

mutual

theorem Inline.sources_eq : ∀ x : Inline, x.sources = x.imageUrls
  | .text _ => rfl
  | .code _ => rfl
  | .lineBreak => rfl
  | .unknown => rfl
  | .image _ _ _ => rfl
  | .emphasis _ children => sourcesIn_eq children
  | .link url _ children => by
    rw [Inline.sources, Inline.imageUrls]
    by_cases hshown : (isBlankText url || anyVisible children) = true
    · rw [if_pos hshown, sourcesIn_eq children]
    · have hinvisible : anyVisible children = false := by simp_all
      rw [if_neg hshown, imageUrlsIn_of_invisible children hinvisible]

/-- The sources of inline content are those of its images. -/
theorem sourcesIn_eq : ∀ xs : List Inline, sourcesIn xs = imageUrlsIn xs
  | [] => rfl
  | x :: xs => by rw [sourcesIn, imageUrlsIn, x.sources_eq, sourcesIn_eq xs]

end

/-! ### Passages -/

/-- The sources of passages. -/
def passageSources (ps : List Passage) : List String := ps.flatMap fun p ↦ sourcesIn p.content

@[simp] theorem passageSources_cons (p : Passage) (ps : List Passage) :
    passageSources (p :: ps) = sourcesIn p.content ++ passageSources ps := List.flatMap_cons

@[simp] theorem passageSources_append (ps qs : List Passage) :
    passageSources (ps ++ qs) = passageSources ps ++ passageSources qs := List.flatMap_append

theorem passageSources_code (first : Bool) (lines : List String) :
    passageSources (codePassages first lines) = [] := by
  induction lines generalizing first with
  | nil => rfl
  | cons line rest ih => rw [codePassages, passageSources_cons, ih]; rfl

/-- The cells of a row that is long enough have all the images of its contents. -/
theorem passageSources_cells (header : Bool) {columns : Nat} {contents : List (List Inline)}
    (h : contents.length ≤ columns) :
    passageSources ((paddedCells columns contents).map (.cell header)) =
      contents.flatMap imageUrlsIn := by
  induction columns generalizing contents with
  | zero =>
    rw [List.length_eq_zero_iff.mp (Nat.le_zero.mp h)]
    rfl
  | succ columns ih =>
    rw [paddedCells, List.map_cons, passageSources_cons, Passage.content, sourcesIn_eq]
    cases contents with
    | nil => rw [List.tail_nil, ih (Nat.zero_le _)]; rfl
    | cons content contents =>
      rw [List.tail_cons, ih (Nat.le_of_succ_le_succ h), List.flatMap_cons, List.headD_cons]

/-- No row of a table is longer than the table is wide. -/
theorem length_le_columnCount {rows : List TableRow} {row : TableRow} (h : row ∈ rows) :
    row.cells.length ≤ columnCount rows := by
  have hlongest : row.cells.length ≤ (rows.map fun r ↦ r.cells.length).foldr max 0 :=
    List.le_max_of_le (List.mem_map.mpr ⟨row, h, rfl⟩) le_rfl
  rw [columnCount, List.foldl_eq_foldr]
  exact hlongest.trans (Nat.le_max_right _ _)

theorem passageSources_table (rows : List TableRow) :
    passageSources (tablePassages rows) =
      rows.flatMap fun row ↦ row.cells.flatMap imageUrlsIn := by
  rw [tablePassages]
  split
  · next h => rw [List.isEmpty_iff.mp h]; rfl
  · rw [passageSources_append, rowPassages, passageSources, List.flatMap_assoc]
    have hspacer : passageSources [.spacer] = [] := rfl
    rw [hspacer, List.append_nil]
    exact List.flatMap_congr fun row hrow ↦
      passageSources_cells row.header (length_le_columnCount hrow)

mutual

theorem Block.passageSources_eq : ∀ (b : Block) (level : Int),
    passageSources (b.passages level) = b.imageUrls
  | .heading n content, level => by
    rw [Block.passages, Block.imageUrls, ← sourcesIn_eq]; exact List.append_nil _
  | .paragraph content, level => by
    rw [Block.passages, Block.imageUrls, ← sourcesIn_eq]; exact List.append_nil _
  | .list ordered items, level => passageSources_listPassages ordered items level 1
  | .table rows, level => passageSources_table rows
  | .code lines, level => passageSources_code true _
  | .quote blocks, level => passageSources_quotePassages blocks level
  | .rule, level => rfl
  | .unknown, level => rfl

/-- The sources of the passages of a text are those of its images. -/
theorem passageSources_passagesOf : ∀ (bs : List Block) (level : Int),
    passageSources (passagesOf level bs) = imageUrlsOf bs
  | [], level => rfl
  | b :: bs, level => by
    rw [passagesOf, imageUrlsOf, passageSources_append, b.passageSources_eq,
      passageSources_passagesOf bs]

theorem passageSources_quotePassages : ∀ (bs : List Block) (level : Int),
    passageSources (quotePassages level bs) = imageUrlsOf bs
  | [], level => rfl
  | b :: bs, level => by
    have hblock := b.passageSources_eq level
    have hrest := passageSources_quotePassages bs level
    cases b with
    | paragraph content =>
      rw [quotePassages, imageUrlsOf, passageSources_cons, hrest, Passage.content, sourcesIn_eq,
        Block.imageUrls]
    | _ => rw [quotePassages, imageUrlsOf, passageSources_append, hblock, hrest]; nofun

theorem passageSources_itemPassages (mark : String) : ∀ (bs : List Block) (level : Int),
    passageSources (itemPassages level mark bs) = imageUrlsOf bs
  | [], level => rfl
  | b :: bs, level => by
    have hblock := b.passageSources_eq (level + 1)
    have hrest := passageSources_passagesOf bs (level + 1)
    cases b with
    | paragraph content =>
      rw [itemPassages, imageUrlsOf, passageSources_cons, hrest, Passage.content, sourcesIn_eq,
        Block.imageUrls]
    | _ =>
      rw [itemPassages, imageUrlsOf, passageSources_cons, passageSources_append, hblock, hrest]
      · rfl
      · nofun

theorem passageSources_listPassages (ordered : Bool) :
    ∀ (items : List (List Block)) (level : Int) (number : Nat),
      passageSources (listPassages ordered level number items) = imageUrlsOfItems items
  | [], level, number => rfl
  | item :: items, level, number => by
    rw [listPassages, imageUrlsOfItems, passageSources_append, passageSources_itemPassages _ item,
      passageSources_listPassages ordered items]

end

/-- The sources that writing names are those of the images of the text. -/
theorem sourcesOf_eq (blocks : List Block) : sourcesOf blocks = imageUrlsOf blocks :=
  passageSources_passagesOf blocks 1

end Folio
