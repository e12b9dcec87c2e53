import Folio.Proofs.Format

/-!
# List items

The items of the lists in a text are numbered list by list and indented level by level (`Entry`,
`outlineOf`). The paragraphs of the text whose first lines hang out are those that start its items,
in the order of the outline and each with the mark and the indentation of its item
(`lists_outlined`). What follows in an item is not indented with it: only the list items and the
quoted paragraphs among it are indented at all (`later_indents`).
-/

set_option autoImplicit false
set_option relaxedAutoImplicit false

namespace Folio

open Word

/-! ### Marks -/

/-- A text without tabs and line ends is one piece of content. -/
theorem itemsFrom_of_forall {cs : List Char} (h : ∀ c ∈ cs, c ≠ '\t' ∧ c ≠ '\n' ∧ c ≠ '\r')
    (pending : List Char) :
    Run.itemsFrom pending cs = Run.itemsFrom.flush (cs.reverse ++ pending) := by
  induction cs generalizing pending with
  | nil => rfl
  | cons c cs ih =>
    obtain ⟨⟨htab, hnewline, hreturn⟩, hrest⟩ := List.forall_mem_cons.mp h
    simp [Run.itemsFrom, htab, hnewline, hreturn, ih hrest]

/-- The mark of a list item is a number with a full stop, or a bullet. -/
theorem itemMark_chars (ordered : Bool) (number : Nat) :
    ∀ c ∈ (itemMark ordered number).toList, c.isDigit = true ∨ c = '.' ∨ c = ' ' ∨ c = '•' := by
  intro c hc
  unfold itemMark at hc
  split at hc
  · rw [String.toList_append, List.mem_append] at hc
    rcases hc with hdigit | hend
    · exact .inl (isDigit_of_mem_toString hdigit)
    · have hmem : c ∈ ['.', ' '] := hend
      simp only [List.mem_cons, List.not_mem_nil, or_false] at hmem
      exact .inr (hmem.imp_right .inl)
  · have hmem : c ∈ ['•', ' '] := hc
    simp only [List.mem_cons, List.not_mem_nil, or_false] at hmem
    exact .inr (.inr hmem.symm)

/-- The run with the mark of a list item. -/
def markRun (mark : String) : Run := ⟨some [.bold false, .italic false], [.text mark true]⟩

/-- The mark of a list item can be written, as a run without a style. -/
theorem textRun_itemMark (settings : Settings) (ordered : Bool) (number : Nat) :
    textRun settings (itemMark ordered number) .plain Run.empty =
      (markRun (itemMark ordered number), none) := by
  have hplain : ∀ c ∈ (itemMark ordered number).toList, c ≠ '\t' ∧ c ≠ '\n' ∧ c ≠ '\r' := by
    intro c hc
    rcases itemMark_chars ordered number c hc with hdigit | rfl | rfl | rfl
    · refine ⟨?_, ?_, ?_⟩ <;> rintro rfl <;> exact absurd hdigit (by decide)
    all_goals decide
  have hitems : Run.itemsOf (itemMark ordered number) =
      [Run.textItem (itemMark ordered number).toList] := by
    have hne : (itemMark ordered number).toList ≠ [] := by cases ordered <;> simp [itemMark]
    simp [Run.itemsOf, itemsFrom_of_forall hplain, Run.itemsFrom.flush, hne]
  have hwrite : Run.write (itemMark ordered number) Run.empty =
      (⟨none, [Run.textItem (itemMark ordered number).toList]⟩, none) := by
    have hcompatible : Run.isCompatibleItem (Run.textItem (itemMark ordered number).toList) := by
      rw [Run.textItem, Run.isCompatibleItem, String.ofList_toList]
      exact isCompatibleText_itemMark ordered number
    simp [Run.write, hitems, hcompatible, Run.empty]
  have hstyle (r : Run) : RunStyle.plain.apply settings.codeFont r =
      ((r.editProperties (RunProperty.bold false).put).editProperties
        (RunProperty.italic false).put, none) := rfl
  simp [textRun, Change.andThen, hwrite, hstyle, markRun, Run.editProperties, Run.propertyList,
    RunProperty.put, putProperty, RunProperty.rank, insertBefore_cons, Run.keepingSpace,
    Run.textItem]

/-! ### Outlines -/

/-- An item of a list: the level of the list, whether it is ordered, and the number of the item. -/
structure Entry where
  level : Int
  ordered : Bool
  number : Nat

/-- The mark of an item: its number if the list is ordered, and a bullet otherwise. -/
def Entry.mark (e : Entry) : String := if e.ordered then toString e.number ++ ". " else "• "

/-- A paragraph starts an item: it has the indentation of the level, its first line hangs out, and
its first run is the mark. -/
def Entry.Starts (e : Entry) (q : Paragraph) : Prop :=
  q.properties = some [.indent ⟨some (720 * e.level), some 360⟩] ∧
    q.items.head? = some (.run (markRun e.mark))

mutual

/-- The items of the lists in a block in reading order, if lists in it are at a level. -/
def Block.outline (level : Int) : Block → List Entry
  | .list ordered items => itemsOutline ordered level 1 items
  | .quote blocks => outlineOf level blocks
  | _ => []

/-- The items of the lists in blocks in reading order. -/
def outlineOf (level : Int) : List Block → List Entry
  | [] => []
  | b :: bs => b.outline level ++ outlineOf level bs

/-- The items of a list from a number on, each followed by those of the lists in it. -/
def itemsOutline (ordered : Bool) (level : Int) (number : Nat) : List (List Block) → List Entry
  | [] => []
  | item :: items =>
    ⟨level, ordered, number⟩ :: outlineOf (level + 1) item ++
      itemsOutline ordered level (number + 1) items

end

/-- The items of a list are numbered from a number on, and the lists in them are one level
deeper. -/
theorem itemsOutline_eq_mapIdx (ordered : Bool) (level : Int) (number : Nat)
    (items : List (List Block)) : itemsOutline ordered level number items =
      (items.mapIdx fun i item ↦
        (⟨level, ordered, number + i⟩ : Entry) :: outlineOf (level + 1) item).flatten := by
  induction items generalizing number with
  | nil => rfl
  | cons item items ih =>
    rw [itemsOutline, ih, List.mapIdx_cons, List.flatten_cons]
    simp [Nat.add_assoc, Nat.add_comm 1]

/-! ### Starts of items among passages -/

/-- The level and the mark of the item that a passage starts, if it starts one. -/
def Passage.start? : Passage → Option (Int × String)
  | .itemStart level mark _ => some (level, mark)
  | _ => none

/-- Passages that are at no level start no items. -/
theorem filterMap_start?_eq_nil {ps : List Passage} (h : ps.filterMap Passage.level? = []) :
    ps.filterMap Passage.start? = [] := by
  rw [List.filterMap_eq_nil_iff] at h ⊢
  intro p hp
  have hlevel := h p hp
  cases p <;> first | rfl | cases hlevel

mutual

/-- The items that the passages of a block start are those of its outline. -/
theorem Block.starts_eq : ∀ (b : Block) (level : Int),
    (b.passages level).filterMap Passage.start? =
      (b.outline level).map fun e ↦ (e.level, e.mark)
  | .heading _ _, _ => rfl
  | .paragraph _, _ => rfl
  | .list ordered items, level => starts_listPassages ordered items level 1
  | .table rows, _ => filterMap_start?_eq_nil (tablePassages_level? rows)
  | .code _, _ => filterMap_start?_eq_nil (codePassages_level? true _)
  | .quote blocks, level => starts_quotePassages blocks level
  | .rule, _ => rfl
  | .unknown, _ => rfl

/-- The items that the passages of blocks start are those of their outline. -/
theorem starts_passagesOf : ∀ (bs : List Block) (level : Int),
    (passagesOf level bs).filterMap Passage.start? =
      (outlineOf level bs).map fun e ↦ (e.level, e.mark)
  | [], _ => rfl
  | b :: bs, level => by
    rw [passagesOf, outlineOf, List.filterMap_append, List.map_append, b.starts_eq,
      starts_passagesOf bs]

theorem starts_quotePassages : ∀ (bs : List Block) (level : Int),
    (quotePassages level bs).filterMap Passage.start? =
      (outlineOf level bs).map fun e ↦ (e.level, e.mark)
  | [], _ => rfl
  | b :: bs, level => by
    have hblock := b.starts_eq level
    have hrest := starts_quotePassages bs level
    rw [outlineOf, List.map_append, ← hblock, ← hrest]
    cases b with
    | paragraph content => rfl
    | _ => rw [quotePassages, List.filterMap_append]; nofun

theorem starts_itemPassages (mark : String) : ∀ (bs : List Block) (level : Int),
    (itemPassages level mark bs).filterMap Passage.start? =
      (level, mark) :: (outlineOf (level + 1) bs).map fun e ↦ (e.level, e.mark)
  | [], _ => rfl
  | b :: bs, level => by
    have hblock := b.starts_eq (level + 1)
    have hrest := starts_passagesOf bs (level + 1)
    rw [outlineOf, List.map_append, ← hblock, ← hrest]
    cases b with
    | paragraph content => rfl
    | _ =>
      rw [itemPassages, List.filterMap_cons, List.filterMap_append]
      · rfl
      · nofun

theorem starts_listPassages (ordered : Bool) :
    ∀ (items : List (List Block)) (level : Int) (number : Nat),
      (listPassages ordered level number items).filterMap Passage.start? =
        (itemsOutline ordered level number items).map fun e ↦ (e.level, e.mark)
  | [], _, _ => rfl
  | item :: items, level, number => by
    rw [listPassages, itemsOutline, List.filterMap_append, List.map_append, starts_itemPassages,
      starts_listPassages ordered items]
    rfl

end

/-! ### Writing items -/

/-- Whether the first line of a paragraph hangs out. -/
def Word.Paragraph.hangs (q : Paragraph) : Bool := q.indents.any (·.hanging.isSome)

/-- The paragraphs whose first lines hang out are those that start items. -/
theorem Passage.hangs_eq {settings : Settings} {p : Passage} {q : Paragraph}
    (h : q.properties = p.properties settings) : q.hangs = p.start?.isSome := by
  cases p <;>
    simp [Paragraph.hangs, Paragraph.indents, Paragraph.propertyList, h, Passage.properties,
      ParagraphProperty.indent?, List.filterMap_cons, Passage.start?]

/-- The first piece of the paragraph of an item is its mark. -/
theorem Passage.write_start {env : Surroundings} {s : RenderState} {e : Entry}
    {content : List Inline} {q : Paragraph}
    (h : ((Passage.itemStart e.level e.mark content).write env s).result = .ok ())
    (hq : ((Passage.itemStart e.level e.mark content).write env s).written = [q]) :
    q.items.head? = some (.run (markRun e.mark)) := by
  obtain ⟨q', hitems, -, hwrite⟩ := Passage.write_of_ok h
  obtain rfl : q' = q := by simpa [hwrite] using hq
  have hmark : Segment.write env (.fragment (.text e.mark .plain)) s =
      ⟨[.run (markRun e.mark)], s, .ok ()⟩ := by
    have hrun : textRun env.settings e.mark .plain Run.empty = (markRun e.mark, none) :=
      textRun_itemMark env.settings e.ordered e.number
    simp [Segment.write, Fragment.write, writeText, inParagraph, Step.mapWritten, Step.make, hrun]
  rw [hitems, Passage.segments, Step.forEach_cons, Step.bind_of_ok (by rw [hmark])]
  simp [hmark]

/-- Where related elements are picked alike from two lists, what is picked is related. -/
theorem forall₂_filterMap_filter {α β γ : Type} {S : α → β → Prop} {f : α → Option γ}
    {g : β → Bool} {as : List α} {bs : List β} (h : List.Forall₂ S as bs)
    (hpick : ∀ a b, S a b → g b = (f a).isSome) :
    List.Forall₂ (fun c b ↦ ∃ a, f a = some c ∧ S a b) (as.filterMap f) (bs.filter g) := by
  induction h with
  | nil => exact .nil
  | @cons a b as bs hab _ ih =>
    have hb := hpick a b hab
    rcases ha : f a with _ | c
    · rw [ha, Option.isSome_none] at hb
      rwa [List.filterMap_cons_none ha, List.filter_cons_of_neg (by simp [hb])]
    · rw [ha, Option.isSome_some] at hb
      rw [List.filterMap_cons_some ha, List.filter_cons_of_pos hb]
      exact .cons ⟨a, ha, hab⟩ ih

/-- The paragraphs whose first lines hang out are, among those that passages are written as, those
that start the items of an outline of the passages. -/
theorem writePassages_starts {env : Surroundings} {s : RenderState} {ps : List Passage}
    {es : List Entry} (houtline : ps.filterMap Passage.start? = es.map fun e ↦ (e.level, e.mark))
    (hok : (writePassages env ps s).result = .ok ()) :
    List.Forall₂ Entry.Starts es ((writePassages env ps s).written.filter Paragraph.hangs) := by
  have hwritten : List.Forall₂ (fun p q ↦ q.properties = p.properties env.settings ∧
      ∀ (e : Entry) content, p = .itemStart e.level e.mark content →
        q.items.head? = some (.run (markRun e.mark))) ps (writePassages env ps s).written := by
    refine forall₂_writePassages_of_forall (fun p _ t hp ↦ ?_) hok
    obtain ⟨q, hq, hproperties⟩ := Passage.write_properties hp
    refine ⟨q, hq, hproperties, ?_⟩
    rintro e content rfl
    exact Passage.write_start hp hq
  have hpicked := forall₂_filterMap_filter hwritten fun p q h ↦ Passage.hangs_eq h.1
  rw [houtline, List.forall₂_map_left_iff] at hpicked
  refine hpicked.imp ?_
  rintro e q ⟨p, hstart, hproperties, hmark⟩
  obtain ⟨content, rfl⟩ : ∃ content, p = .itemStart e.level e.mark content := by
    cases p with
    | itemStart level mark content =>
      obtain ⟨rfl, rfl⟩ := Prod.mk.inj (Option.some.inj hstart)
      exact ⟨content, rfl⟩
    | _ => cases hstart
  exact ⟨hproperties, hmark e content rfl⟩

/-- Blocks that can be written, from any state, leave the depth of lists as it was, and the
paragraphs whose first lines hang out, in reading order, start the items of their outline one for
one. In the outline every list, also one behind another list or in a quote, is numbered from 1, and
between an item and the next one stand the items of the lists in it, one level deeper. -/
theorem lists_outlined {env : Surroundings} {bs : List Block} {s : RenderState}
    (h : (writeBlocks env bs s).result = .ok ()) :
    List.Forall₂ Entry.Starts (outlineOf (s.listDepth + 1) bs)
        ((paragraphsOf (writeBlocks env bs s).written).filter Paragraph.hangs) ∧
      (writeBlocks env bs s).state.listDepth = s.listDepth ∧
      ∀ level ordered items, (Block.list ordered items).outline level =
        (items.mapIdx fun i item ↦
          (⟨level, ordered, i + 1⟩ : Entry) :: outlineOf (level + 1) item).flatten := by
  obtain ⟨hok, hwritten, hstate⟩ := (writeBlocks_flattens env s.listDepth bs).of_ok h
  refine ⟨?_, ?_, fun level ordered items ↦ ?_⟩
  · rw [paragraphsOf, ← hwritten]
    exact writePassages_starts (starts_passagesOf bs _) hok
  · rw [← hstate]
    exact (ignoresDepth_writePassages env _).listDepth_eq s
  · rw [Block.outline, itemsOutline_eq_mapIdx]
    simp only [Nat.add_comm 1]

/-- An ordered list with a list in a quote, and another list behind it. -/
def nestedLists : List Block :=
  [.list true [[.paragraph [.text "a"], .quote [.paragraph [.text "b"], .list true [[]]]], [.rule]],
    .list false [[.code []]]]

theorem lists_outlined_nestedLists :
    (writeBlocks {} nestedLists {}).result = .ok () ∧
      List.Forall₂ Entry.Starts [⟨1, true, 1⟩, ⟨2, true, 1⟩, ⟨1, true, 2⟩, ⟨1, false, 1⟩]
        ((paragraphsOf (writeBlocks {} nestedLists {}).written).filter Paragraph.hangs) := by
  have hok : (writeBlocks {} nestedLists {}).result = .ok () := by decide +kernel
  exact ⟨hok, (lists_outlined hok).1⟩

/-! ### What follows in items -/

/-- The passages of an item are those of its start and its first block, and then those of what
follows. -/
theorem itemParts_cons (level : Int) (mark : String) (b : Block) (rest : List Block) :
    itemParts level mark (b :: rest) =
      itemParts level mark [b] ++ partsOf (level + 1) rest := by
  cases b <;> simp [itemParts, partsOf]

/-- Blocks that can be written are dispatched one after the other at one depth of lists. -/
theorem writeBlocks_pieces {env : Surroundings} {bs : List Block} {s : RenderState}
    (h : (writeBlocks env bs s).result = .ok ()) :
    ∃ pieces : List (List Paragraph),
      paragraphsOf (writeBlocks env bs s).written = pieces.flatten ∧
      List.Forall₂ (fun b qs ↦ ∃ t : RenderState, t.listDepth = s.listDepth ∧
        (writeBlock env b t).result = .ok () ∧
        paragraphsOf (writeBlock env b t).written = qs) bs pieces := by
  induction bs generalizing s with
  | nil => exact ⟨[], rfl, .nil⟩
  | cons b bs ih =>
    rw [writeBlocks] at h ⊢
    obtain ⟨⟨⟩, hfirst, hrest⟩ := Step.ok_of_bind_ok h
    have hdepth : (writeBlock env b s).state.listDepth = s.listDepth := by
      rw [writeBlock_eq]
      exact (ignoresDepth_writeParts _).listDepth_eq s
    obtain ⟨pieces, hwritten, hpieces⟩ := ih hrest
    rw [hdepth] at hpieces
    refine ⟨paragraphsOf (writeBlock env b s).written :: pieces, ?_,
      .cons ⟨s, rfl, hfirst, rfl⟩ hpieces⟩
    rw [Step.bind_of_ok hfirst, List.flatten_cons, ← hwritten, paragraphsOf, paragraphsOf,
      paragraphsOf, List.flatMap_append]

/-- Of the paragraphs that a block is written as at a depth of lists, those that start items, and
right in a list of the text those right in quotes, are indented as far as the items around the
block; the others are not. -/
theorem writeBlock_indents {env : Surroundings} {b : Block} {t : RenderState}
    (h : (writeBlock env b t).result = .ok ()) :
    List.Forall₂ (fun p q ↦ (∃ left ∈ q.leftIndents, 720 * t.listDepth ≤ left) ↔
        p.start?.isSome ∨ p.isQuoted ∧ t.listDepth ≤ 1)
      (b.passages (t.listDepth + 1)) (paragraphsOf (writeBlock env b t).written) := by
  obtain ⟨hok, hwritten, -⟩ := (writeBlock_flattens env t.listDepth b).of_ok h
  rw [paragraphsOf, ← hwritten]
  refine forall₂_writePassages_of_forall (fun p hp u hpok ↦ ?_) hok
  obtain ⟨q, hq, hproperties⟩ := Passage.write_properties hpok
  refine ⟨q, hq, ?_⟩
  have hlevel (level : Int) (hstart : p.level? = some level) : t.listDepth + 1 ≤ level :=
    ((b.mem_levels _).mp (List.mem_filterMap.mpr ⟨p, hp, hstart⟩)).1
  rw [(Passage.formats_of_properties hproperties).leftIndents]
  cases p with
  | itemStart level mark content =>
    have hbound := hlevel level rfl
    have hleft : t.listDepth ≤ level := by omega
    simp [Passage.start?, hleft]
  | _ => simp [Passage.start?, Passage.isQuoted]

/-- A list item at a depth of lists that can be written is written as its start with its first block
and then what follows, block by block one level deeper. Of the paragraphs of what follows, those
that start items are indented as far as the item; so are those right in quotes, if the item is not
in another one; and the others are not. -/
theorem later_indents {env : Surroundings} {mark : String} {first : Block} {rest : List Block}
    {s : RenderState}
    (h : (writeListItem env (s.listDepth + 1) mark (first :: rest) s).result = .ok ()) :
    ∃ later : List (List Paragraph),
      paragraphsOf (writeListItem env (s.listDepth + 1) mark (first :: rest) s).written =
        paragraphsOf (writeListItem env (s.listDepth + 1) mark [first] s).written ++
          later.flatten ∧
      List.Forall₂ (fun b qs ↦ ∃ t : RenderState, t.listDepth = s.listDepth + 1 ∧
        paragraphsOf (writeBlock env b t).written = qs ∧
        List.Forall₂ (fun p q ↦ (∃ left ∈ q.leftIndents, 720 * (s.listDepth + 1) ≤ left) ↔
          p.start?.isSome ∨ p.isQuoted ∧ s.listDepth ≤ 0) (b.passages (s.listDepth + 2)) qs)
        rest later := by
  have hparts (bs : List Block) : writeListItem env (s.listDepth + 1) mark bs s =
      writeParts env (itemParts (s.listDepth + 1) mark bs) s :=
    writeListItem_parts s.listDepth mark bs s rfl
  have hitem := hparts (first :: rest)
  rw [itemParts_cons, writeParts_append] at hitem
  rw [hitem] at h
  obtain ⟨⟨⟩, hstart, hrest⟩ := Step.ok_of_bind_ok h
  rw [hitem, hparts [first], Step.bind_of_ok hstart]
  generalize (writeParts env (itemParts (s.listDepth + 1) mark [first]) s).state = u at hrest ⊢
  -- What follows is dispatched one level deeper, which its parts do not look at.
  have hdeeper : writeBlocks env rest (u.atDepth (s.listDepth + 1)) =
      writeParts env (partsOf (s.listDepth + 1 + 1) rest) (u.atDepth (s.listDepth + 1)) :=
    writeBlocks_eq rest _
  rw [ignoresDepth_writeParts] at hdeeper
  have hok : (writeBlocks env rest (u.atDepth (s.listDepth + 1))).result = .ok () := by
    rw [hdeeper]
    exact hrest
  obtain ⟨later, hwritten, hlater⟩ := writeBlocks_pieces hok
  refine ⟨later, ?_, hlater.imp ?_⟩
  · rw [← hwritten, hdeeper]
    simp only [paragraphsOf, List.flatMap_append]
  · rintro b qs ⟨t, htdepth, htok, hqs⟩
    have ht : t.listDepth = s.listDepth + 1 := htdepth
    have hindents := writeBlock_indents htok
    rw [ht, hqs] at hindents
    refine ⟨t, ht, hqs, ?_⟩
    rw [show s.listDepth + 2 = s.listDepth + 1 + 1 by ring]
    refine hindents.imp fun p q hpq ↦ hpq.trans (or_congr_right (and_congr_right fun _ ↦ ?_))
    omega

/-- An item with a second paragraph. -/
def longItem : List Block := [.paragraph [.text "a"], .paragraph [.text "b"]]

theorem later_indents_longItem :
    (writeListItem {} 1 "• " longItem {}).result = .ok () ∧
      ∃ later : List (List Paragraph),
        paragraphsOf (writeListItem {} 1 "• " longItem {}).written =
          paragraphsOf (writeListItem {} 1 "• " [.paragraph [.text "a"]] {}).written ++
            later.flatten ∧
        List.Forall₂ (fun b qs ↦ ∃ t : RenderState, t.listDepth = 1 ∧
          paragraphsOf (writeBlock {} b t).written = qs ∧
          List.Forall₂ (fun p q ↦ (∃ left ∈ q.leftIndents, 720 ≤ left) ↔
            p.start?.isSome ∨ p.isQuoted ∧ (0 : Int) ≤ 0) (b.passages 2) qs)
          [.paragraph [.text "b"]] later := by
  have hok : (writeListItem {} 1 "• " longItem {}).result = .ok () := by decide +kernel
  exact ⟨hok, @later_indents {} "• " (.paragraph [.text "a"]) [.paragraph [.text "b"]] {} hok⟩

/-- The second paragraph of the item is not indented. -/
theorem longItem_unindented :
    ∃ s d, build {} [.list false [longItem]] = (s, .ok d) ∧
      (paragraphsOf d.body).map Paragraph.leftIndents = [[720], []] :=
  exists_build_of_map (by decide +kernel)

end Folio
