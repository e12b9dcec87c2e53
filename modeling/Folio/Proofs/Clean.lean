import Folio.Proofs.References

/-!
# Clean texts

A text is clean if XML can hold every string in its tree (`allClean`, `blocksClean`). Then XML can
hold whatever is made of these strings: the texts of its fragments with the alternative texts of
images (`fragmentsOf_clean`), and the marks of list items (`passagesOf_clean`). The levels of the
list items of a text are the numbers up to its nesting (`mem_levels_passagesOf`).
-/

set_option autoImplicit false
set_option relaxedAutoImplicit false

namespace Folio

open Word

/-! ### Clean strings -/

/-- XML can hold two texts together if it can hold each. -/
theorem isCompatibleText_append (s t : String) :
    isCompatibleText (s ++ t) = (isCompatibleText s && isCompatibleText t) := by
  simp [isCompatibleText, isCompatible]

/-- XML can hold what is left of a text by trimming. -/
theorem isCompatibleText_trimmed {s : String} (h : isCompatibleText s = true) :
    isCompatibleText (trimmed s) = true := by
  simp only [isCompatibleText, isCompatible, List.all_eq_true, toList_trimmed] at h ⊢
  intro c hc
  have hstart : trimStart s.toList <:+ s.toList := List.dropWhile_suffix _
  exact h c (hstart.subset ((trimEnd_isPrefix _).subset hc))

/-- XML can hold a number. -/
theorem isCompatibleText_toString (n : Nat) : isCompatibleText (toString n) = true := by
  simp only [isCompatibleText, isCompatible, List.all_eq_true]
  intro c hc
  have hdigit : c.isDigit = true := isDigit_of_mem_toString hc
  simp only [Char.isDigit, Bool.and_eq_true, decide_eq_true_eq, ge_iff_le,
    UInt32.le_iff_toNat_le] at hdigit
  have hvalue : c.val.toNat = c.toNat := rfl
  rw [hvalue] at hdigit
  simp only [isCompatibleChar, Bool.and_eq_true, Bool.or_eq_true, decide_eq_true_eq]
  grind

/-- XML can hold the mark of a list item. -/
theorem isCompatibleText_itemMark (ordered : Bool) (number : Nat) :
    isCompatibleText (itemMark ordered number) = true := by
  unfold itemMark
  split
  · rw [isCompatibleText_append, isCompatibleText_toString]
    decide
  · decide

/-- XML can hold a caption exactly if it can hold the alternative text. -/
theorem isCompatibleText_caption (alt : String) :
    isCompatibleText (caption alt) = isCompatibleText alt := by
  have hstart : isCompatibleText "[Image: " = true := by decide
  have hend : isCompatibleText "]" = true := by decide
  rw [caption, isCompatibleText_append, isCompatibleText_append, hstart, hend, Bool.true_and,
    Bool.and_true]

/-! ### Clean trees -/

mutual

/-- Whether XML can hold every string in a piece of inline content. -/
def Inline.isClean : Inline → Bool
  | .text content => isCompatibleText content
  | .emphasis _ children => allClean children
  | .code content => isCompatibleText content
  | .lineBreak => true
  | .link url title children =>
    isCompatibleText url && title.all isCompatibleText && allClean children
  | .image url title alt => isCompatibleText url && title.all isCompatibleText && allClean alt
  | .unknown => true

/-- Whether XML can hold every string in inline content. -/
def allClean : List Inline → Bool
  | [] => true
  | x :: xs => x.isClean && allClean xs

end

mutual

/-- Whether XML can hold every string in a block. -/
def Block.isClean : Block → Bool
  | .heading _ content => allClean content
  | .paragraph content => allClean content
  | .list _ items => itemsClean items
  | .code lines => lines.all isCompatibleText
  | .quote blocks => blocksClean blocks
  | .rule => true
  | .table rows => rows.all fun row ↦ row.cells.all allClean
  | .unknown => true

/-- Whether XML can hold every string in blocks. -/
def blocksClean : List Block → Bool
  | [] => true
  | b :: bs => b.isClean && blocksClean bs

/-- Whether XML can hold every string in the items of a list. -/
def itemsClean : List (List Block) → Bool
  | [] => true
  | item :: items => blocksClean item && itemsClean items

end

/-- Whether XML can hold every string in a fragment. -/
def Fragment.isClean : Fragment → Bool
  | .text content _ => isCompatibleText content
  | .lineBreak => true
  | .image url alt _ => isCompatibleText url && isCompatibleText alt

mutual

/-- The text of clean content is clean. -/
theorem Inline.plainText_clean : ∀ {x : Inline}, x.isClean = true →
    isCompatibleText x.plainText = true
  | .text content, h => h
  | .code content, h => h
  | .lineBreak, _ => by decide
  | .emphasis n children, h => by
    rw [Inline.isClean] at h
    exact plainTextOf_clean h
  | .link url title children, h => by
    simp only [Inline.isClean, Bool.and_eq_true] at h
    exact plainTextOf_clean h.2
  | .image url title alt, h => by
    simp only [Inline.isClean, Bool.and_eq_true] at h
    exact plainTextOf_clean h.2
  | .unknown, _ => by decide

/-- The text of clean content is clean. -/
theorem plainTextOf_clean : ∀ {xs : List Inline}, allClean xs = true →
    isCompatibleText (plainTextOf xs) = true
  | [], _ => by decide
  | x :: xs, h => by
    simp only [allClean, Bool.and_eq_true] at h
    rw [plainTextOf_cons, isCompatibleText_append, x.plainText_clean h.1, plainTextOf_clean h.2]
    rfl

end

/-- The alternative text of a clean image is clean. -/
theorem altText_clean {title : Option String} {content : List Inline}
    (htitle : title.all isCompatibleText = true) (hcontent : allClean content = true) :
    isCompatibleText (altText title content) = true := by
  unfold altText
  dsimp only
  split
  · cases title with
    | none => decide
    | some t => exact htitle
  · exact isCompatibleText_trimmed (plainTextOf_clean hcontent)

mutual

/-- The fragments of clean content are clean. -/
theorem Inline.fragments_clean (settings : Settings) : ∀ {x : Inline} (_ : x.isClean = true)
    (style : RunStyle), ∀ f ∈ x.fragments settings style, f.isClean = true
  | .text content, h, style => List.forall_mem_singleton.mpr h
  | .emphasis n children, h, style => by
    rw [Inline.isClean] at h
    exact fragmentsOf_clean settings h _
  | .code content, h, style => List.forall_mem_singleton.mpr h
  | .lineBreak, _, style => List.forall_mem_singleton.mpr rfl
  | .image url title alt, h, style => by
    simp only [Inline.isClean, Bool.and_eq_true] at h
    refine List.forall_mem_singleton.mpr ?_
    simp [Fragment.isClean, h.1.1, altText_clean h.1.2 h.2]
  | .link url title children, h, style => by
    simp only [Inline.isClean, Bool.and_eq_true] at h
    rw [Inline.fragments]
    split
    · exact fragmentsOf_clean settings h.2 style
    · exact List.forall_mem_singleton.mpr h.1.1
  | .unknown, _, style => List.forall_mem_nil _

/-- The fragments of clean content are clean. -/
theorem fragmentsOf_clean (settings : Settings) : ∀ {xs : List Inline} (_ : allClean xs = true)
    (style : RunStyle), ∀ f ∈ fragmentsOf settings xs style, f.isClean = true
  | [], _, _ => List.forall_mem_nil _
  | x :: xs, h, style => by
    simp only [allClean, Bool.and_eq_true] at h
    exact List.forall_mem_append.mpr
      ⟨x.fragments_clean settings h.1 style, fragmentsOf_clean settings h.2 style⟩

end

/-- The fragments of the label of a clean link are clean. -/
theorem labelFragments_clean (settings : Settings) {url : String} {children : List Inline}
    (hurl : isCompatibleText url = true) (hchildren : allClean children = true)
    (style : RunStyle) : ∀ f ∈ labelFragments settings url children style, f.isClean = true := by
  unfold labelFragments
  split
  · exact fragmentsOf_clean settings hchildren style
  · exact List.forall_mem_singleton.mpr hurl

/-- The sources of clean content are clean. -/
theorem sourcesIn_clean {xs : List Inline} (h : allClean xs = true) :
    ∀ url ∈ sourcesIn xs, isCompatibleText url = true := by
  rw [← fragmentsOf_sources {} xs .plain, List.forall_mem_flatMap]
  intro f hf url hurl
  have hclean := fragmentsOf_clean {} h .plain f hf
  cases f with
  | text content style => cases hurl
  | lineBreak => cases hurl
  | image source alt style =>
    simp only [Fragment.isClean, Bool.and_eq_true] at hclean
    rw [Fragment.sources] at hurl
    split at hurl
    · cases hurl
    · rw [List.mem_singleton.mp hurl]
      exact hclean.1

/-- Whether XML can hold every string in a segment. -/
def Segment.isClean : Segment → Bool
  | .fragment f => f.isClean
  | .link url children _ => isCompatibleText url && allClean children

/-- The fragments of a piece of clean content are clean segments. -/
theorem leaf_clean (settings : Settings) {x : Inline} (h : x.isClean = true) (style : RunStyle) :
    ∀ y ∈ (x.fragments settings style).map Segment.fragment, y.isClean = true := by
  intro y hy
  obtain ⟨f, hf, rfl⟩ := List.mem_map.mp hy
  exact x.fragments_clean settings h style f hf

mutual

/-- The segments of clean content are clean. -/
theorem Inline.segments_clean (settings : Settings) : ∀ {x : Inline} (_ : x.isClean = true)
    (style : RunStyle), ∀ y ∈ x.segments settings style, y.isClean = true
  | .emphasis n children, h, style => by
    rw [Inline.isClean] at h
    exact segmentsOf_clean settings h _
  | .link url title children, h, style => by
    simp only [Inline.isClean, Bool.and_eq_true] at h
    rw [Inline.segments]
    split
    · exact segmentsOf_clean settings h.2 style
    · refine List.forall_mem_singleton.mpr ?_
      rw [Segment.isClean, h.1.1, h.2]
      rfl
  | .text content, h, style => leaf_clean settings (x := .text content) h style
  | .code content, h, style => leaf_clean settings (x := .code content) h style
  | .lineBreak, h, style => leaf_clean settings (x := .lineBreak) h style
  | .image url title alt, h, style => leaf_clean settings (x := .image url title alt) h style
  | .unknown, h, style => leaf_clean settings (x := .unknown) h style

/-- The segments of clean content are clean. -/
theorem segmentsOf_clean (settings : Settings) : ∀ {xs : List Inline} (_ : allClean xs = true)
    (style : RunStyle), ∀ y ∈ segmentsOf settings xs style, y.isClean = true
  | [], _, _ => List.forall_mem_nil _
  | x :: xs, h, style => by
    simp only [allClean, Bool.and_eq_true] at h
    exact List.forall_mem_append.mpr
      ⟨x.segments_clean settings h.1 style, segmentsOf_clean settings h.2 style⟩

end

/-! ### Clean passages -/

/-- Whether XML can hold every string in a passage. -/
def Passage.isClean : Passage → Bool
  | .itemStart _ mark content => isCompatibleText mark && allClean content
  | .codeLine _ _ line => isCompatibleText line
  | p => allClean p.content

/-- The content of a clean passage is clean. -/
theorem Passage.content_clean {p : Passage} (h : p.isClean = true) :
    allClean p.content = true := by
  cases p with
  | itemStart level mark content =>
    simp only [Passage.isClean, Bool.and_eq_true] at h
    exact h.2
  | codeLine first last line => rfl
  | _ => exact h

/-- The segments of a clean passage are clean. -/
theorem Passage.segments_clean (settings : Settings) {p : Passage} (h : p.isClean = true) :
    ∀ y ∈ p.segments settings, y.isClean = true := by
  cases p with
  | itemStart level mark content =>
    simp only [Passage.isClean, Bool.and_eq_true] at h
    exact List.forall_mem_cons.mpr ⟨h.1, segmentsOf_clean settings h.2 _⟩
  | codeLine first last line =>
    rw [Passage.segments]
    split
    · exact List.forall_mem_nil _
    · exact List.forall_mem_singleton.mpr h
  | heading level content => exact segmentsOf_clean settings h _
  | paragraph content => exact segmentsOf_clean settings h _
  | quoted content => exact segmentsOf_clean settings h _
  | cell header content => exact segmentsOf_clean settings h _
  | rule => exact List.forall_mem_nil _
  | spacer => exact List.forall_mem_nil _

/-- The passages of clean lines of code are clean. -/
theorem codePassages_clean {first : Bool} {lines : List String}
    (h : lines.all isCompatibleText = true) : ∀ p ∈ codePassages first lines, p.isClean = true := by
  induction lines generalizing first with
  | nil => exact List.forall_mem_nil _
  | cons line rest ih =>
    simp only [List.all_cons, Bool.and_eq_true] at h
    exact List.forall_mem_cons.mpr ⟨h.1, ih h.2⟩

/-- The contents of the cells of a clean row are clean. -/
theorem paddedCells_clean (columns : Nat) {contents : List (List Inline)}
    (h : contents.all allClean = true) :
    ∀ xs ∈ paddedCells columns contents, allClean xs = true := by
  induction columns generalizing contents with
  | zero => exact List.forall_mem_nil _
  | succ columns ih =>
    rw [paddedCells]
    cases contents with
    | nil => exact List.forall_mem_cons.mpr ⟨rfl, ih rfl⟩
    | cons xs rest =>
      simp only [List.all_cons, Bool.and_eq_true] at h
      exact List.forall_mem_cons.mpr ⟨h.1, ih h.2⟩

/-- The passages of a clean table are clean. -/
theorem tablePassages_clean {rows : List TableRow}
    (h : (rows.all fun row ↦ row.cells.all allClean) = true) :
    ∀ p ∈ tablePassages rows, p.isClean = true := by
  rw [tablePassages]
  split
  · exact List.forall_mem_nil _
  · refine List.forall_mem_append.mpr ⟨?_, List.forall_mem_singleton.mpr rfl⟩
    intro p hp
    obtain ⟨row, hrow, hcell⟩ := List.mem_flatMap.mp hp
    obtain ⟨xs, hxs, rfl⟩ := List.mem_map.mp hcell
    exact paddedCells_clean _ (List.all_eq_true.mp h row hrow) xs hxs

mutual

/-- The passages of a clean block are clean. -/
theorem Block.passages_clean : ∀ {b : Block} (_ : b.isClean = true) (level : Int),
    ∀ p ∈ b.passages level, p.isClean = true
  | .heading n content, h, level => List.forall_mem_singleton.mpr h
  | .paragraph content, h, level => List.forall_mem_singleton.mpr h
  | .list ordered items, h, level => by
    rw [Block.isClean] at h
    exact listPassages_clean h ordered level 1
  | .table rows, h, level => tablePassages_clean h
  | .code lines, h, level => by
    rw [Block.isClean] at h
    refine codePassages_clean ?_
    split
    · decide
    · exact h
  | .quote blocks, h, level => by
    rw [Block.isClean] at h
    exact quotePassages_clean h level
  | .rule, _, level => List.forall_mem_singleton.mpr rfl
  | .unknown, _, level => List.forall_mem_nil _

/-- The passages of clean blocks are clean. -/
theorem passagesOf_clean : ∀ {bs : List Block} (_ : blocksClean bs = true) (level : Int),
    ∀ p ∈ passagesOf level bs, p.isClean = true
  | [], _, level => List.forall_mem_nil _
  | b :: bs, h, level => by
    simp only [blocksClean, Bool.and_eq_true] at h
    exact List.forall_mem_append.mpr
      ⟨b.passages_clean h.1 level, passagesOf_clean h.2 level⟩

/-- The passages of a clean quote are clean. -/
theorem quotePassages_clean : ∀ {bs : List Block} (_ : blocksClean bs = true) (level : Int),
    ∀ p ∈ quotePassages level bs, p.isClean = true
  | [], _, level => List.forall_mem_nil _
  | b :: bs, h, level => by
    simp only [blocksClean, Bool.and_eq_true] at h
    have hblock := b.passages_clean h.1 level
    have hrest := quotePassages_clean h.2 level
    cases b with
    | paragraph content => exact List.forall_mem_cons.mpr ⟨h.1, hrest⟩
    | _ => exact List.forall_mem_append.mpr ⟨hblock, hrest⟩

/-- The passages of a clean list item are clean. -/
theorem itemPassages_clean : ∀ {bs : List Block} (_ : blocksClean bs = true) (level : Int)
    {mark : String} (_ : isCompatibleText mark = true),
    ∀ p ∈ itemPassages level mark bs, p.isClean = true
  | [], _, level, mark, hmark =>
    List.forall_mem_singleton.mpr (by simp [Passage.isClean, hmark, allClean])
  | b :: bs, h, level, mark, hmark => by
    simp only [blocksClean, Bool.and_eq_true] at h
    have hblock := b.passages_clean h.1 (level + 1)
    have hrest := passagesOf_clean h.2 (level + 1)
    have hstart (content : List Inline) (hcontent : allClean content = true) :
        (Passage.itemStart level mark content).isClean = true := by
      rw [Passage.isClean, hmark, hcontent]
      rfl
    cases b with
    | paragraph content => exact List.forall_mem_cons.mpr ⟨hstart content h.1, hrest⟩
    | _ =>
      exact List.forall_mem_cons.mpr
        ⟨hstart [] rfl, List.forall_mem_append.mpr ⟨hblock, hrest⟩⟩

/-- The passages of the clean items of a list are clean. -/
theorem listPassages_clean : ∀ {items : List (List Block)} (_ : itemsClean items = true)
    (ordered : Bool) (level : Int) (number : Nat),
    ∀ p ∈ listPassages ordered level number items, p.isClean = true
  | [], _, ordered, level, number => List.forall_mem_nil _
  | item :: items, h, ordered, level, number => by
    simp only [itemsClean, Bool.and_eq_true] at h
    exact List.forall_mem_append.mpr
      ⟨itemPassages_clean h.1 level (isCompatibleText_itemMark ordered number),
        listPassages_clean h.2 ordered level (number + 1)⟩

end

/-! ### Levels of list items -/

/-- The level of the list item that a passage starts, if it starts one. -/
def Passage.level? : Passage → Option Int
  | .itemStart level _ _ => some level
  | _ => none

mutual

/-- How deep the items of lists are nested in a block. -/
def Block.nesting : Block → Nat
  | .list _ items => itemsNesting items
  | .quote blocks => nestingOf blocks
  | _ => 0

/-- How deep the items of lists are nested in blocks. -/
def nestingOf : List Block → Nat
  | [] => 0
  | b :: bs => max b.nesting (nestingOf bs)

/-- How deep the items of lists are nested in items of a list, themselves included. -/
def itemsNesting : List (List Block) → Nat
  | [] => 0
  | item :: items => max (nestingOf item + 1) (itemsNesting items)

end

/-- Lines of code start no list items. -/
theorem codePassages_level? (first : Bool) (lines : List String) :
    (codePassages first lines).filterMap Passage.level? = [] := by
  induction lines generalizing first with
  | nil => rfl
  | cons line rest ih => rw [codePassages, List.filterMap_cons_none rfl, ih]

/-- Tables start no list items. -/
theorem tablePassages_level? (rows : List TableRow) :
    (tablePassages rows).filterMap Passage.level? = [] := by
  rw [List.filterMap_eq_nil_iff, tablePassages]
  split
  · exact List.forall_mem_nil _
  · refine List.forall_mem_append.mpr ⟨?_, List.forall_mem_singleton.mpr rfl⟩
    intro p hp
    obtain ⟨row, -, hcell⟩ := List.mem_flatMap.mp hp
    obtain ⟨xs, -, rfl⟩ := List.mem_map.mp hcell
    rfl

section Levels

variable {l : Int}

mutual

/-- The levels of the list items of a block are as many as its nesting. -/
theorem Block.mem_levels : ∀ (b : Block) (level : Int),
    l ∈ (b.passages level).filterMap Passage.level? ↔ level ≤ l ∧ l < level + b.nesting
  | .heading n content, level => by simp [Block.passages, Passage.level?, Block.nesting]
  | .paragraph content, level => by simp [Block.passages, Passage.level?, Block.nesting]
  | .list ordered items, level => by
    rw [Block.passages, Block.nesting]
    exact mem_levels_listPassages ordered items level 1
  | .table rows, level => by simp [Block.passages, tablePassages_level?, Block.nesting]
  | .code lines, level => by simp [Block.passages, codePassages_level?, Block.nesting]
  | .quote blocks, level => by
    rw [Block.passages, Block.nesting]
    exact mem_levels_quotePassages blocks level
  | .rule, level => by simp [Block.passages, Passage.level?, Block.nesting]
  | .unknown, level => by simp [Block.passages, Block.nesting]

/-- The levels of the list items of blocks are as many as their nesting. -/
theorem mem_levels_passagesOf : ∀ (bs : List Block) (level : Int),
    l ∈ (passagesOf level bs).filterMap Passage.level? ↔ level ≤ l ∧ l < level + nestingOf bs
  | [], level => by simp [passagesOf, nestingOf]
  | b :: bs, level => by
    rw [passagesOf, nestingOf, List.filterMap_append, List.mem_append, b.mem_levels level,
      mem_levels_passagesOf bs level]
    omega

/-- The levels of the list items of a quote are as many as its nesting. -/
theorem mem_levels_quotePassages : ∀ (bs : List Block) (level : Int),
    l ∈ (quotePassages level bs).filterMap Passage.level? ↔ level ≤ l ∧ l < level + nestingOf bs
  | [], level => by simp [quotePassages, nestingOf]
  | b :: bs, level => by
    have hblock := b.mem_levels level
    have hrest := mem_levels_quotePassages bs level
    cases b with
    | paragraph content =>
      have hnone : (Block.paragraph content).nesting = 0 := by simp [Block.nesting]
      rw [quotePassages, List.filterMap_cons_none rfl, hrest, nestingOf, hnone]
      omega
    | _ =>
      rw [quotePassages, List.filterMap_append, List.mem_append, hblock, hrest, nestingOf]
      · omega
      · simp

/-- The levels of a list item and of those in it are one more than its nesting. -/
theorem mem_levels_itemPassages (mark : String) : ∀ (bs : List Block) (level : Int),
    l ∈ (itemPassages level mark bs).filterMap Passage.level? ↔
      level ≤ l ∧ l < level + (nestingOf bs + 1 : Nat)
  | [], level => by
    simp only [itemPassages, nestingOf, Passage.level?, List.filterMap_cons, List.filterMap_nil,
      List.mem_singleton]
    omega
  | b :: bs, level => by
    have hblock := b.mem_levels (level + 1)
    have hrest := mem_levels_passagesOf bs (level + 1)
    have hstart (content : List Inline) (ps : List Passage) :
        l ∈ (Passage.itemStart level mark content :: ps).filterMap Passage.level? ↔
          l = level ∨ l ∈ ps.filterMap Passage.level? := by
      rw [List.filterMap_cons_some (f := Passage.level?) rfl, List.mem_cons]
    cases b with
    | paragraph content =>
      have hnone : (Block.paragraph content).nesting = 0 := by simp [Block.nesting]
      rw [itemPassages, hstart, hrest, nestingOf, hnone]
      omega
    | _ =>
      rw [itemPassages, hstart, List.filterMap_append, List.mem_append, hblock, hrest, nestingOf]
      · omega
      · simp

/-- The levels of the items of a list are as many as their nesting. -/
theorem mem_levels_listPassages (ordered : Bool) : ∀ (items : List (List Block)) (level : Int)
    (number : Nat), l ∈ (listPassages ordered level number items).filterMap Passage.level? ↔
      level ≤ l ∧ l < level + itemsNesting items
  | [], level, number => by simp [listPassages, itemsNesting]
  | item :: items, level, number => by
    rw [listPassages, itemsNesting, List.filterMap_append, List.mem_append,
      mem_levels_itemPassages _ item level, mem_levels_listPassages ordered items level]
    omega

end

end Levels

end Folio
