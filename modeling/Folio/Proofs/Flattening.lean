import Folio.Proofs.Part
import Folio.Render.Document

/-!
# A document as a sequence of passages

Writing blocks is writing one paragraph after the other. `writeBlocks_flattens` says that the blocks
leave the same state, have the same result and write the same paragraphs as their passages do, up to
the cells that a failing table leaves empty. So a document is built exactly if its passages can be
written (`build_eq_ok_iff`), and its paragraphs are what they write (`written_of_build`).
-/

set_option autoImplicit false
set_option relaxedAutoImplicit false

namespace Folio

open Word

/-! ### Flattening -/

/-- From a state at a depth of lists, a step leaves the same state and has the same result as a
step that writes paragraphs, and writes the same paragraphs; if it fails, more paragraphs may follow
that are empty. -/
def Step.Flattens {ω : Type} (view : ω → List Paragraph) (depth : Int) (step : Step ω Unit)
    (flat : Step Paragraph Unit) : Prop :=
  ∀ s : RenderState, s.listDepth = depth →
    (step s).result = (flat s).result ∧ (step s).state = (flat s).state ∧
      ∃ n, (step s).written.flatMap view = (flat s).written ++ List.replicate n Paragraph.empty ∧
        ((step s).result = .ok () → n = 0)

namespace Step

variable {ω ω' : Type} {view : ω → List Paragraph} {depth : Int}

theorem flattens_done : Flattens view depth (done ()) (done ()) :=
  fun _ _ ↦ ⟨rfl, rfl, 0, by simp, fun _ ↦ rfl⟩

/-- A step that succeeds writes the paragraphs of the step that it flattens to, and no others. -/
theorem Flattens.of_ok {step : Step ω Unit} {flat : Step Paragraph Unit} {s : RenderState}
    (h : Flattens view s.listDepth step flat) (hok : (step s).result = .ok ()) :
    (flat s).result = .ok () ∧ (flat s).written = (step s).written.flatMap view ∧
      (flat s).state = (step s).state := by
  obtain ⟨hresult, hstate, n, hwritten, hn⟩ := h s rfl
  rw [hn hok, List.replicate_zero, List.append_nil] at hwritten
  exact ⟨hresult ▸ hok, hwritten.symm, hstate.symm⟩

/-- Sequences of steps flatten to the sequences of what the steps flatten to. -/
theorem Flattens.bind {a b : Step ω Unit} {a' b' : Step Paragraph Unit}
    (ha : Flattens view depth a a') (hdepth : a'.IgnoresDepth) (hb : Flattens view depth b b') :
    Flattens view depth (a.bind fun _ ↦ b) (a'.bind fun _ ↦ b') := by
  intro s hs
  obtain ⟨hresult, hstate, n, hwritten, hn⟩ := ha s hs
  rcases hok : (a s).result with e | ⟨⟩
  · have hok' : (a' s).result = .error e := by rw [← hresult, hok]
    rw [bind_of_error hok, bind_of_error hok']
    exact ⟨rfl, hstate, n, hwritten, fun h ↦ by simp at h⟩
  · have hok' : (a' s).result = .ok () := by rw [← hresult, hok]
    rw [bind_of_ok hok, bind_of_ok hok', hstate]
    have hafter : (a' s).state.listDepth = depth := by rw [hdepth.listDepth_eq, hs]
    obtain ⟨hresult₂, hstate₂, m, hwritten₂, hm⟩ := hb (a' s).state hafter
    refine ⟨hresult₂, hstate₂, m, ?_, hm⟩
    rw [List.flatMap_append, hwritten, hn hok, hwritten₂]
    simp

/-- A step whose pieces are gathered shows the same paragraphs if the piece does. -/
theorem Flattens.gather {step : Step ω Unit} {flat : Step Paragraph Unit} {f : List ω → ω'}
    {view' : ω' → List Paragraph} (h : Flattens view depth step flat)
    (hf : ∀ ws, view' (f ws) = ws.flatMap view) :
    Flattens view' depth (gather f step) flat := by
  intro s hs
  obtain ⟨hresult, hstate, n, hwritten, hn⟩ := h s hs
  exact ⟨hresult, hstate, n, by simp [hf, hwritten], hn⟩

/-- A step after whose failure pieces with empty paragraphs follow. -/
theorem Flattens.leaving {step : Step ω Unit} {flat : Step Paragraph Unit} {rest : List ω}
    (h : Flattens view depth step flat) (hrest : ∀ p ∈ rest.flatMap view, p = Paragraph.empty) :
    Flattens view depth (leaving rest step) flat := by
  intro s hs
  obtain ⟨hresult, hstate, n, hwritten, hn⟩ := h s hs
  rcases hstep : step s with ⟨written, state, e | ⟨⟩⟩ <;>
    simp only [hstep] at hresult hstate hwritten hn
  · refine ⟨by simp [Step.leaving, hstep, ← hresult], by simp [Step.leaving, hstep, ← hstate],
      n + (rest.flatMap view).length, ?_, fun h ↦ by simp [Step.leaving, hstep] at h⟩
    have hempty : rest.flatMap view = List.replicate (rest.flatMap view).length .empty :=
      List.eq_replicate_iff.mpr ⟨rfl, hrest⟩
    simp only [Step.leaving, hstep, List.flatMap_append, hwritten]
    rw [hempty, List.append_assoc, List.replicate_append_replicate, List.length_replicate]
  · refine ⟨by simp [Step.leaving, hstep, ← hresult], by simp [Step.leaving, hstep, ← hstate],
      n, ?_, fun _ ↦ hn trivial⟩
    simp only [Step.leaving, hstep, hwritten]

end Step

section Blocks

variable (env : Surroundings) {depth : Int}

/-! ### Flattening tables -/

/-- The paragraph of a cell. -/
def cellView (c : Cell) : List Paragraph := [c.content]

theorem flattens_writeCell (header : Bool) (content : List Inline) {cell : Cell}
    (hcell : cell.content = .empty) :
    Step.Flattens cellView depth (writeCell env header content cell)
      (writePassages env [.cell header content]) := by
  rw [writePassages_singleton]
  intro s _
  unfold writeCell Passage.write writeFormatted
  rw [writeItems_eq]
  cases header
  · exact ⟨rfl, rfl, 0, by
      simp [Change.when, Passage.format, Passage.segments, cellView, hcell], fun _ ↦ rfl⟩
  · simp only [Change.when, Passage.format, Cell.addShade, ↓reduceIte]
    rcases textFailure? env.settings.headerShade with _ | e
    · exact ⟨rfl, rfl, 0, by simp [cellView, hcell, Passage.segments], fun _ ↦ rfl⟩
    · exact ⟨rfl, rfl, 0, by simp [cellView, hcell], fun _ ↦ rfl⟩

/-- Filling the empty cells of a row writes the paragraphs of the row. -/
theorem flattens_writeCells (header : Bool) {cells : List Cell}
    (hcells : ∀ c ∈ cells, c.content = .empty) (contents : List (List Inline)) :
    Step.Flattens cellView depth (writeCells env header cells contents)
      (writePassages env ((paddedCells cells.length contents).map (.cell header))) := by
  induction cells generalizing contents with
  | nil => exact Step.flattens_done
  | cons cell cells ih =>
    have hrest : ∀ p ∈ cells.flatMap cellView, p = Paragraph.empty := by
      intro p hp
      obtain ⟨c, hc, hpc⟩ := List.mem_flatMap.mp hp
      rw [cellView, List.mem_singleton] at hpc
      rw [hpc, hcells c (List.mem_cons_of_mem cell hc)]
    have hcell : Step.Flattens cellView depth
        ((writeCell env header (contents.headD []) cell).leaving cells)
        (writePassages env [.cell header (contents.headD [])]) :=
      (flattens_writeCell env header _ (hcells cell List.mem_cons_self)).leaving hrest
    rw [writePassages_singleton] at hcell
    exact hcell.bind (Passage.ignoresDepth_write env _)
      (ih (fun c hc ↦ hcells c (List.mem_cons_of_mem cell hc)) contents.tail)

/-- The paragraphs of a row of cells. -/
def rowView (cells : List Cell) : List Paragraph := cells.flatMap cellView

/-- Filling the rows of an empty table writes the paragraphs of the table. -/
theorem flattens_writeRows {columns : Nat} {table : List (List Cell)} {rows : List TableRow}
    (hlength : table.length = rows.length)
    (htable : ∀ cells ∈ table, cells.length = columns ∧ ∀ c ∈ cells, c.content = .empty) :
    Step.Flattens rowView depth (writeRows env table rows)
      (writePassages env (rowPassages columns rows)) := by
  induction table generalizing rows with
  | nil =>
    rw [List.length_nil, eq_comm, List.length_eq_zero_iff] at hlength
    rw [hlength]
    exact Step.flattens_done
  | cons cells table ih =>
    obtain ⟨row, rows, rfl⟩ : ∃ row rest, rows = row :: rest :=
      List.exists_cons_of_length_eq_add_one hlength.symm
    obtain ⟨hcolumns, hempty⟩ := htable cells List.mem_cons_self
    have hrest : ∀ p ∈ table.flatMap rowView, p = Paragraph.empty := by
      intro p hp
      obtain ⟨cs, hcs, hpcs⟩ := List.mem_flatMap.mp hp
      obtain ⟨c, hc, hpc⟩ := List.mem_flatMap.mp hpcs
      rw [cellView, List.mem_singleton] at hpc
      rw [hpc, (htable cs (List.mem_cons_of_mem cells hcs)).2 c hc]
    have hgather : Step.Flattens rowView depth
        ((writeCells env row.header cells row.cells).gather id)
        (writePassages env ((paddedCells cells.length row.cells).map (.cell row.header))) :=
      (flattens_writeCells env row.header hempty row.cells).gather fun _ ↦ rfl
    have hrow := hgather.leaving hrest
    have hrows := ih (Nat.succ.inj hlength)
      fun cs hcs ↦ htable cs (List.mem_cons_of_mem cells hcs)
    rw [hcolumns] at hrow
    rw [rowPassages, List.flatMap_cons, writePassages_append]
    exact hrow.bind (ignoresDepth_writePassages env _) hrows

/-! ### Flattening parts -/

/-- The passages of a part: those of a table are its cells row by row. -/
def Part.passages : Part → List Passage
  | .passage p => [p]
  | .table rows => rowPassages (columnCount rows) rows

/-- Writing a part writes its passages. -/
theorem Part.write_flattens (p : Part) :
    Step.Flattens Element.paragraphs depth (p.write env) (writePassages env p.passages) := by
  cases p with
  | passage p =>
    intro s _
    rw [Part.write, Part.passages, writePassages_singleton]
    exact ⟨rfl, rfl, 0, by simp [List.flatMap_map, Element.paragraphs], fun _ ↦ rfl⟩
  | table rows =>
    have hrows : (emptyTable rows).rows = (Table.ofSize rows.length (columnCount rows)).rows := by
      unfold emptyTable Table.setGrid
      split <;> rfl
    have hfill : Step.Flattens rowView depth (writeRows env (emptyTable rows).rows rows)
        (writePassages env (rowPassages (columnCount rows) rows)) := by
      rw [hrows]
      refine flattens_writeRows env List.length_replicate fun cells hcells ↦ ?_
      rw [List.eq_of_mem_replicate hcells]
      exact ⟨List.length_replicate, fun c hc ↦ by rw [List.eq_of_mem_replicate hc]; rfl⟩
    have hrow : rowView = List.map (·.content) := funext fun _ ↦ List.map_eq_flatMap.symm
    exact hfill.gather fun filled ↦ by simp [Element.paragraphs, hrow, List.flatMap_def]

/-- Writing parts writes their passages one after the other. -/
theorem writeParts_flattens (ps : List Part) :
    Step.Flattens Element.paragraphs depth (writeParts env ps)
      (writePassages env (ps.flatMap Part.passages)) := by
  induction ps with
  | nil => exact Step.flattens_done
  | cons p ps ih =>
    rw [List.flatMap_cons, writePassages_append]
    exact (p.write_flattens env).bind (ignoresDepth_writePassages env _) ih

end Blocks

/-! ### Passages of blocks -/

theorem flatMap_passages_code (ps : List Passage) :
    (ps.map Part.passage).flatMap Part.passages = ps := by
  rw [List.flatMap_map]
  exact List.flatMap_singleton' ps

mutual

/-- The passages of the parts of a block are its passages. -/
theorem Block.flatMap_passages : ∀ (b : Block) (level : Int),
    (b.parts level).flatMap Part.passages = b.passages level
  | .heading _ _, _ => rfl
  | .paragraph _, _ => rfl
  | .rule, _ => rfl
  | .unknown, _ => rfl
  | .table rows, level => by
    rw [Block.parts, Block.passages, tableParts, tablePassages]
    split
    · rfl
    · rw [List.flatMap_cons, List.flatMap_singleton]
      rfl
  | .code lines, level => flatMap_passages_code _
  | .list ordered items, level => flatMap_passages_listParts ordered items level 1
  | .quote blocks, level => flatMap_passages_quoteParts blocks level

/-- The passages of the parts of blocks are their passages. -/
theorem flatMap_passages_partsOf : ∀ (bs : List Block) (level : Int),
    (partsOf level bs).flatMap Part.passages = passagesOf level bs
  | [], _ => rfl
  | b :: bs, level => by
    rw [partsOf, passagesOf, List.flatMap_append, b.flatMap_passages, flatMap_passages_partsOf bs]

theorem flatMap_passages_quoteParts : ∀ (bs : List Block) (level : Int),
    (quoteParts level bs).flatMap Part.passages = quotePassages level bs
  | [], _ => rfl
  | b :: bs, level => by
    have hblock := b.flatMap_passages level
    have hrest := flatMap_passages_quoteParts bs level
    cases b with
    | paragraph content => rw [quoteParts, quotePassages, List.flatMap_cons, hrest]; rfl
    | _ => rw [quoteParts, quotePassages, List.flatMap_append, hblock, hrest] <;> nofun

theorem flatMap_passages_itemParts (mark : String) : ∀ (bs : List Block) (level : Int),
    (itemParts level mark bs).flatMap Part.passages = itemPassages level mark bs
  | [], _ => rfl
  | b :: bs, level => by
    have hblock := b.flatMap_passages (level + 1)
    have hrest := flatMap_passages_partsOf bs (level + 1)
    cases b with
    | paragraph content => rw [itemParts, itemPassages, List.flatMap_cons, hrest]; rfl
    | _ =>
      rw [itemParts, itemPassages, List.flatMap_cons, List.flatMap_append, hblock, hrest]
      · rfl
      all_goals nofun

theorem flatMap_passages_listParts (ordered : Bool) :
    ∀ (items : List (List Block)) (level : Int) (number : Nat),
      (listParts ordered level number items).flatMap Part.passages =
        listPassages ordered level number items
  | [], _, _ => rfl
  | item :: items, level, number => by
    rw [listParts, listPassages, List.flatMap_append, flatMap_passages_itemParts _ item,
      flatMap_passages_listParts ordered items]

end

/-- Writing a block writes its passages. -/
theorem writeBlock_flattens (env : Surroundings) (depth : Int) (b : Block) :
    Step.Flattens Element.paragraphs depth (writeBlock env b)
      (writePassages env (b.passages (depth + 1))) := by
  intro s hs
  rw [writeBlock_parts depth b s hs, ← b.flatMap_passages]
  exact writeParts_flattens env _ s hs

/-- Writing blocks writes their passages one after the other. -/
theorem writeBlocks_flattens (env : Surroundings) (depth : Int) (bs : List Block) :
    Step.Flattens Element.paragraphs depth (writeBlocks env bs)
      (writePassages env (passagesOf (depth + 1) bs)) := by
  intro s hs
  rw [writeBlocks_parts depth bs s hs, ← flatMap_passages_partsOf]
  exact writeParts_flattens env _ s hs

/-! ### Documents -/

/-- A document is built exactly if there can be one and all passages of its text can be written. -/
theorem build_eq_ok_iff {env : Surroundings} {blocks : List Block} :
    (∃ d, (build env blocks).2 = .ok d) ↔
      env.faults.create = none ∧ (writePassages env (passagesOf 1 blocks) {}).result = .ok () := by
  have hflat : Step.Flattens Element.paragraphs 0 (writeBlocks env blocks)
      (writePassages env (passagesOf 1 blocks)) := writeBlocks_flattens env 0 blocks
  obtain ⟨hresult, -, -⟩ := hflat {} rfl
  unfold build
  rcases env.faults.create with _ | message
  · rcases hok : (writeBlocks env blocks {}).result with e | ⟨⟩ <;> simp [← hresult, hok]
  · simp

/-- A document of which something is seen has been built. -/
theorem exists_build_of_map {α : Type} {view : Document → α} {env : Surroundings}
    {blocks : List Block} {a : α} (h : (build env blocks).2.toOption.map view = some a) :
    ∃ s d, build env blocks = (s, .ok d) ∧ view d = a := by
  rcases hbuild : build env blocks with ⟨s, e | d⟩
  · rw [hbuild] at h
    cases h
  · rw [hbuild] at h
    exact ⟨s, d, rfl, Option.some.inj h⟩

/-- The body of a document is what its blocks are written as. -/
theorem outcome_of_build {env : Surroundings} {blocks : List Block} {s : RenderState}
    {d : Document} (h : build env blocks = (s, .ok d)) :
    writeBlocks env blocks {} = ⟨d.body, s, .ok ()⟩ ∧ d.relationships = s.relationships := by
  unfold build at h
  rcases hcreate : env.faults.create with _ | message
  · rw [hcreate] at h
    rcases hblocks : writeBlocks env blocks {} with ⟨written, state, e | ⟨⟩⟩
    · simp [hblocks] at h
    · simp only [hblocks, Prod.mk.injEq, Except.ok.injEq] at h
      obtain ⟨rfl, rfl⟩ := h
      exact ⟨rfl, rfl⟩
  · simp [hcreate] at h

/-- The paragraphs of a document are those that its passages write, and its relationships are those
of the state that they leave. -/
theorem written_of_build {env : Surroundings} {blocks : List Block} {s : RenderState}
    {d : Document} (h : build env blocks = (s, .ok d)) :
    (writePassages env (passagesOf 1 blocks) {}).result = .ok () ∧
      (writePassages env (passagesOf 1 blocks) {}).written = paragraphsOf d.body ∧
      (writePassages env (passagesOf 1 blocks) {}).state = s ∧
      d.relationships = s.relationships := by
  obtain ⟨hblocks, hrelationships⟩ := outcome_of_build h
  have hflat : Step.Flattens Element.paragraphs 0 (writeBlocks env blocks)
      (writePassages env (passagesOf 1 blocks)) := writeBlocks_flattens env 0 blocks
  obtain ⟨hok, hwritten, hstate⟩ := Step.Flattens.of_ok (s := {}) hflat (by rw [hblocks])
  rw [hblocks] at hwritten hstate
  exact ⟨hok, hwritten, hstate, hrelationships⟩

/-- What each segment of a text keeps when it is written, its document keeps as a whole. -/
theorem keeps_of_build {R : RenderState → List ParagraphItem → RenderState → Prop}
    (hR : Step.Sequential R) {env : Surroundings} {blocks : List Block} {s : RenderState}
    {d : Document} (hsegments : ∀ p ∈ passagesOf 1 blocks, ∀ x ∈ p.segments env.settings,
      Step.Yields R (x.write env))
    (h : build env blocks = (s, .ok d)) : R {} ((paragraphsOf d.body).flatMap (·.items)) s := by
  obtain ⟨hok, hwritten, hstate, -⟩ := written_of_build h
  have hparagraphs : Step.Sequential fun s (qs : List Paragraph) t ↦ R s (qs.flatMap (·.items)) t :=
    ⟨hR.nil, fun hv hw ↦ by simpa only [List.flatMap_append] using hR.append hv hw⟩
  have hpassages : Step.Yields (fun s (qs : List Paragraph) t ↦ R s (qs.flatMap (·.items)) t)
      (writePassages env (passagesOf 1 blocks)) := by
    refine Step.yields_forEach hparagraphs fun p hp t _ hp_ok ↦ ?_
    obtain ⟨q, hitems, hcontent, hwrite⟩ := Passage.write_of_ok hp_ok
    have hkept := Step.yields_forEach hR (hsegments p hp) t () hcontent
    rw [hwrite]
    simpa [hitems] using hkept
  rw [← hwritten, ← hstate]
  exact hpassages {} () hok

end Folio
