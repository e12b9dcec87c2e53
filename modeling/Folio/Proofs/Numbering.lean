import Folio.Proofs.References

/-!
# Numbers of drawings

A drawing takes the number behind the largest one in the document. The drawings in the label of a
hyperlink are not in the document before the hyperlink is, so they all take the same number, while a
drawing outside labels is in the document at once. So the numbers of a document run up from one, and
drawings share a number exactly if they stand in the same label (`drawings_numbered`).
-/

set_option autoImplicit false
set_option relaxedAutoImplicit false

namespace Folio

open Word

/-! ### Numbering groups -/

section Groups

variable {α : Type}

/-- The number behind a number, if a group has somebody to take it. -/
def numberAfter (n : Nat) (group : List α) : Nat := if group.isEmpty then n else n + 1

/-- The numbers behind a number, one for each group in turn that is not empty, as often as the group
has members. -/
def numbering (n : Nat) : List (List α) → List Nat
  | [] => []
  | group :: groups =>
    List.replicate group.length (n + 1) ++ numbering (numberAfter n group) groups

theorem numbering_append (n : Nat) (gs hs : List (List α)) :
    numbering n (gs ++ hs) = numbering n gs ++ numbering (gs.foldl numberAfter n) hs := by
  induction gs generalizing n with
  | nil => rfl
  | cons g gs ih =>
    rw [List.cons_append, numbering, numbering, ih, List.foldl_cons, List.append_assoc]

/-- Numbers that are handed out lie behind the number before. -/
theorem lt_of_mem_numbering {n k : Nat} {groups : List (List α)} (h : k ∈ numbering n groups) :
    n < k := by
  induction groups generalizing n with
  | nil => cases h
  | cons g gs ih =>
    rcases List.mem_append.mp h with hg | hgs
    · rw [List.eq_of_mem_replicate hg]
      exact Nat.lt_succ_self n
    · have hle : n ≤ numberAfter n g := by
        unfold numberAfter
        split <;> omega
      exact hle.trans_lt (ih hgs)

/-- No number is taken twice exactly if no group has two members. -/
theorem nodup_numbering_iff (n : Nat) (groups : List (List α)) :
    (numbering n groups).Nodup ↔ ∀ g ∈ groups, g.length ≤ 1 := by
  induction groups generalizing n with
  | nil => simp [numbering]
  | cons g gs ih =>
    have hapart : ∀ k ∈ List.replicate g.length (n + 1),
        ∀ l ∈ numbering (numberAfter n g) gs, k ≠ l := by
      rintro k hk _ hl rfl
      obtain ⟨hne, rfl⟩ := List.mem_replicate.mp hk
      have hbehind : numberAfter n g = n + 1 := by
        cases g with
        | nil => simp at hne
        | cons a g => rfl
      have hlt := lt_of_mem_numbering hl
      omega
    rw [numbering, List.nodup_append, List.nodup_replicate, ih, List.forall_mem_cons]
    exact ⟨fun h ↦ ⟨h.1, h.2.1⟩, fun h ↦ ⟨h.1, h.2, hapart⟩⟩

end Groups

/-! ### Groups of drawings -/

namespace Word

/-- The drawings that take a number together: each drawing of a run has its own, and those in the
label of a hyperlink have one. -/
def ParagraphItem.drawingGroups : ParagraphItem → List (List Drawing)
  | .run content => content.drawings.map ([·])
  | .hyperlink _ label => [label.flatMap Run.drawings]

/-- Only drawings in a label can take a number together. -/
theorem ParagraphItem.forall_drawingGroups_iff (x : ParagraphItem) :
    (∀ group ∈ x.drawingGroups, group.length ≤ 1) ↔
      ∀ id label, x = .hyperlink id label → (label.flatMap Run.drawings).length ≤ 1 := by
  cases x <;> simp [drawingGroups]

end Word

/-! ### Writing runs -/

/-- Runs with at most one drawing: it has the number behind the largest one, which becomes the
largest if the runs are part of the document. -/
def DrawsOne (attached : Bool) (s : RenderState) (runs : List Run) (t : RenderState) : Prop :=
  (runs.flatMap Run.drawings = [] ∧ t.lastDrawing = s.lastDrawing) ∨
    ∃ d, runs.flatMap Run.drawings = [d] ∧ d.number = s.nextDrawing ∧
      t.lastDrawing = if attached then s.nextDrawing else s.lastDrawing

section Draw

variable {env : Surroundings} {url : String} {s t : RenderState}

/-- Loading and drawing leave the number of the last drawing. -/
theorem lastDrawing_of_drawLoaded {result : Except Failure (Option Drawing)}
    (h : drawLoaded env url s = (t, result)) : t.lastDrawing = s.lastDrawing := by
  obtain ⟨relationships, registrations, rfl⟩ := state_of_drawLoaded (congrArg Prod.fst h)
  rcases hload : loadImage env url s with ⟨u, fetched⟩
  obtain ⟨images, requests, log, rfl⟩ := state_of_load hload
  rfl

/-- A drawing takes the next number. -/
theorem number_of_drawLoaded {d : Drawing} (h : drawLoaded env url s = (t, .ok (some d))) :
    d.number = s.nextDrawing := by
  rcases hload : loadImage env url s with ⟨u, e | ⟨content, mediaType⟩ | why⟩
  · rw [drawLoaded_of_unloaded hload] at h
    cases h
  · rw [drawLoaded_of_image hload] at h
    obtain ⟨images, requests, log, rfl⟩ := state_of_load hload
    have hdrawn := Except.ok.inj (congrArg Prod.snd h)
    rcases drawImage_spec env url (imageKind url mediaType) content
        { s with images := s.images ++ images, requests := requests, log := log } with
      ⟨n, hspec, -⟩ | ⟨n, drawing, hspec, -, hnumber⟩
    · rw [hspec] at hdrawn
      cases hdrawn
    · rw [hspec] at hdrawn
      exact (hnumber d hdrawn).2
  · rw [drawLoaded_of_missing hload] at h
    cases h

end Draw

section Write

variable (env : Surroundings)

theorem embedImage_drawsOne (attached : Bool) (url alt : String) (style : RunStyle) :
    (embedImage env attached url alt style).Obeys (DrawsOne attached) := by
  intro s
  rcases hdraw : drawLoaded env url s with ⟨t, e | _ | d⟩
  all_goals have hlast := lastDrawing_of_drawLoaded hdraw
  · rw [embedImage_of_fault attached alt style hdraw]
    exact .inl ⟨rfl, hlast⟩
  · obtain ⟨remark, hembed⟩ := embedImage_of_captioned attached alt style hdraw
    rw [hembed]
    exact .inl ⟨by simp [captionOutcome, captionRun_drawings], hlast⟩
  · obtain ⟨log, hembed⟩ := embedImage_of_shown attached alt style hdraw
    have hnumber := number_of_drawLoaded hdraw
    rw [hembed]
    refine .inr ⟨d, rfl, hnumber, ?_⟩
    cases attached with
    | false => exact hlast
    | true => simp [RenderState.attachDrawing, hnumber, hlast, RenderState.nextDrawing]

/-- A fragment draws at most one image. -/
theorem Fragment.write_drawsOne (attached : Bool) (f : Fragment) :
    (f.write env attached).Obeys (DrawsOne attached) := by
  have hmake {change : Change Run} (hchange : (change Run.empty).1.drawings = []) :
      (Step.make Run.empty change).Obeys (DrawsOne attached) := by
    intro s
    rcases hmade : change Run.empty with ⟨run, _ | e⟩ <;>
      rw [hmade] at hchange <;>
      exact .inl ⟨by simp [Step.make, hmade, hchange], by simp [Step.make, hmade]⟩
  cases f with
  | text content style => exact hmake (textRun_drawings _ _ _)
  | lineBreak => exact fun s ↦ .inl ⟨rfl, rfl⟩
  | image url alt style =>
    rw [Fragment.write]
    split
    · exact hmake (captionRun_drawings _ _ _)
    · intro s
      have hembed := embedImage_drawsOne env attached url alt style s
      rcases hresult : (embedImage env attached url alt style s).result with e | b
      · rwa [Step.bind_of_error hresult]
      · rw [Step.bind_of_ok hresult]
        simpa using hembed

/-- Runs whose drawings all have the number behind the largest one, which stays the largest. -/
def DrawsDetached (s : RenderState) (runs : List Run) (t : RenderState) : Prop :=
  (∀ d ∈ runs.flatMap Run.drawings, d.number = s.nextDrawing) ∧ t.lastDrawing = s.lastDrawing

theorem sequential_drawsDetached : Step.Sequential DrawsDetached where
  nil s := ⟨nofun, rfl⟩
  append {s t u v w} hv hw := by
    refine ⟨?_, hw.2.trans hv.2⟩
    rw [List.flatMap_append, List.forall_mem_append]
    refine ⟨hv.1, fun d hd ↦ ?_⟩
    rw [hw.1 d hd, RenderState.nextDrawing, RenderState.nextDrawing, hv.2]

/-- The images in a label all take the number behind the largest one. -/
theorem writeLabel_drawsDetached (url : String) (children : List Inline) (style : RunStyle) :
    (writeLabel env false url children style).Obeys DrawsDetached := by
  rw [writeLabel_eq]
  refine Step.obeys_forEach sequential_drawsDetached fun f _ s ↦ ?_
  rcases f.write_drawsOne env false s with ⟨hnone, hlast⟩ | ⟨d, hone, hnumber, hlast⟩
  · exact ⟨by simp [hnone], hlast⟩
  · exact ⟨by simp [hone, hnumber], hlast⟩

/-! ### Writing paragraphs -/

/-- Pieces of a paragraph whose drawings are numbered by their groups from the largest number on. -/
structure Numbers (s : RenderState) (items : List ParagraphItem) (t : RenderState) : Prop where
  numbers : (items.flatMap ParagraphItem.drawings).map (·.number) =
    numbering s.lastDrawing (items.flatMap ParagraphItem.drawingGroups)
  last : t.lastDrawing =
    (items.flatMap ParagraphItem.drawingGroups).foldl numberAfter s.lastDrawing

theorem sequential_numbers : Step.Sequential Numbers where
  nil s := ⟨rfl, rfl⟩
  append {s t u v w} hv hw := by
    refine ⟨?_, ?_⟩
    · simp only [List.flatMap_append, List.map_append, numbering_append, hv.numbers, hw.numbers,
        hv.last]
    · rw [List.flatMap_append, List.foldl_append, ← hv.last, hw.last]

/-- A fragment in a paragraph is numbered. -/
theorem Fragment.write_numbers (f : Fragment) :
    (inParagraph (f.write env true)).Obeys Numbers := by
  intro s
  have hdrawings (runs : List Run) :
      (runs.map ParagraphItem.run).flatMap ParagraphItem.drawings =
        runs.flatMap Run.drawings := by
    simp [List.flatMap_map, ParagraphItem.drawings, ParagraphItem.runs]
  have hgroups (runs : List Run) :
      (runs.map ParagraphItem.run).flatMap ParagraphItem.drawingGroups =
        (runs.flatMap Run.drawings).map ([·]) := by
    simp [List.flatMap_map, ParagraphItem.drawingGroups, List.map_flatMap]
  rcases f.write_drawsOne env true s with ⟨hnone, hlast⟩ | ⟨d, hone, hnumber, hlast⟩
  · refine ⟨?_, ?_⟩
    · simp [inParagraph, hdrawings, hgroups, hnone, numbering]
    · simpa [inParagraph, hgroups, hnone] using hlast
  · refine ⟨?_, ?_⟩
    · simp [inParagraph, hdrawings, hgroups, hone, numbering, hnumber, RenderState.nextDrawing]
    · simpa [inParagraph, hgroups, hone, numberAfter, RenderState.nextDrawing] using hlast

/-- The largest number in a label is that of its drawings. -/
theorem lastDrawingOf_eq (label : List Run) :
    lastDrawingOf label = ((label.flatMap Run.drawings).map (·.number)).foldl max 0 := by
  have hdrawings : label.flatMap Run.drawings =
      (label.flatMap (·.items)).filterMap RunItem.drawing? := by
    rw [List.filterMap_flatMap]
    rfl
  have hnumbers : lastDrawingOf label = ((label.flatMap (·.items)).map
      fun x ↦ (x.drawing?.map (·.number)).getD 0).foldl max 0 := by
    rw [lastDrawingOf]
    refine congrArg (List.foldl max 0) (List.map_congr_left fun x _ ↦ ?_)
    cases x <;> rfl
  have hfold (items : List RunItem) (largest : Nat) :
      (items.map fun x ↦ (x.drawing?.map (·.number)).getD 0).foldl max largest =
        ((items.filterMap RunItem.drawing?).map (·.number)).foldl max largest := by
    induction items generalizing largest with
    | nil => rfl
    | cons x items ih => cases x <;> simp [List.filterMap_cons, ih]
  rw [hnumbers, hdrawings, hfold]

/-- A label that is put into the document has at most one number more than the document before. -/
theorem max_lastDrawingOf {n : Nat} {label : List Run}
    (h : ∀ d ∈ label.flatMap Run.drawings, d.number = n + 1) :
    max n (lastDrawingOf label) = numberAfter n (label.flatMap Run.drawings) := by
  have hsame (ds : List Drawing) (hds : ∀ d ∈ ds, d.number = n + 1) :
      (ds.map (·.number)).foldl max (n + 1) = n + 1 := by
    induction ds with
    | nil => rfl
    | cons d ds ih =>
      obtain ⟨hd, hrest⟩ := List.forall_mem_cons.mp hds
      rw [List.map_cons, List.foldl_cons, hd, max_self, ih hrest]
  rw [lastDrawingOf_eq]
  rcases hlabel : label.flatMap Run.drawings with _ | ⟨d, ds⟩
  · simp [numberAfter]
  · rw [hlabel] at h
    obtain ⟨hd, hrest⟩ := List.forall_mem_cons.mp h
    rw [List.map_cons, List.foldl_cons, hd, Nat.zero_max, hsame ds hrest]
    simp [numberAfter]

/-- Images in a label that is written as runs of the paragraph are numbered. -/
theorem writeLabel_numbers (url : String) (children : List Inline) (style : RunStyle) :
    (inParagraph (writeLabel env true url children style)).Obeys Numbers := by
  rw [writeLabel_eq, inParagraph_forEach, Step.forEach_map]
  exact Step.obeys_forEach sequential_numbers fun f _ ↦ f.write_numbers env

/-- A link is numbered: its drawings share a number if it is a hyperlink. -/
theorem writeLink_numbers (url : String) (children : List Inline) (style : RunStyle) :
    (writeLink env url children style).Obeys Numbers := by
  have hnothing {s t : RenderState} (h : t.lastDrawing = s.lastDrawing) : Numbers s [] t :=
    ⟨rfl, h⟩
  intro s
  have hlabel := writeLabel_drawsDetached env url children
    (style.merge (.ofLink env.settings)) (labelStart url s)
  have hstart : (labelStart url s).lastDrawing = s.lastDrawing := by
    obtain ⟨log, hlog⟩ := noteTarget_eq url s
    rw [labelStart, hlog]
  have hplain {t : RenderState} (hlink : writeHyperlink env url (writeLabel env false url children
        (style.merge (.ofLink env.settings))) s = ⟨[], t, .ok false⟩)
      (ht : t.lastDrawing = s.lastDrawing) :
      Numbers s (writeLink env url children style s).written
        (writeLink env url children style s).state := by
    simp only [writeLink, Step.bind, hlink, Bool.false_eq_true, ↓reduceIte]
    exact sequential_numbers.append (hnothing ht) (writeLabel_numbers env url children style t)
  rcases writeHyperlink_cases env url (writeLabel env false url children
    (style.merge (.ofLink env.settings))) s with
    ⟨-, log, hlink⟩ | ⟨-, e, log, -, hlink⟩ | ⟨-, -, hlink⟩
  · exact hplain hlink rfl
  · exact hplain hlink (hlabel.2.trans hstart)
  · simp only [writeLink, Step.bind, hlink, ↓reduceIte, Step.done_apply, List.append_nil]
    generalize writeLabel env false url children
      (style.merge (.ofLink env.settings)) (labelStart url s) = o at hlabel ⊢
    have hnumber : ∀ d ∈ o.written.flatMap Run.drawings, d.number = s.lastDrawing + 1 := by
      intro d hd
      rw [hlabel.1 d hd, RenderState.nextDrawing, hstart]
    have hlast : o.state.lastDrawing = s.lastDrawing := hlabel.2.trans hstart
    refine ⟨?_, ?_⟩
    · have hreplicate : (o.written.flatMap Run.drawings).map (·.number) =
          List.replicate (o.written.flatMap Run.drawings).length (s.lastDrawing + 1) := by
        rw [List.eq_replicate_iff]
        exact ⟨List.length_map _, List.forall_mem_map.mpr hnumber⟩
      simpa [ParagraphItem.drawings, ParagraphItem.runs, ParagraphItem.drawingGroups,
        numbering] using hreplicate
    · simp [RenderState.attachDrawing, hlast, max_lastDrawingOf hnumber,
        ParagraphItem.drawingGroups]

/-- A segment is numbered. -/
theorem Segment.write_numbers (x : Segment) : (x.write env).Obeys Numbers := by
  cases x with
  | fragment f => exact f.write_numbers env
  | link url children style => exact writeLink_numbers env url children style

end Write

/-! ### Documents -/

/-- The drawings of a document are numbered from one on in reading order, those in one label by the
same number. So no two drawings have the same number exactly if no label of a hyperlink has two
drawings. -/
theorem drawings_numbered {env : Surroundings} {blocks : List Block} {s : RenderState}
    {d : Document} (h : build env blocks = (s, .ok d)) :
    (drawingsOf d.body).map (·.number) =
      numbering 0 ((paragraphsOf d.body).flatMap fun p ↦
        p.items.flatMap ParagraphItem.drawingGroups) ∧
    (((drawingsOf d.body).map (·.number)).Nodup ↔
      ∀ p ∈ paragraphsOf d.body, ∀ id label, .hyperlink id label ∈ p.items →
        (label.flatMap Run.drawings).length ≤ 1) := by
  have hnumbers := (keeps_of_build sequential_numbers
    (fun p _ x _ ↦ (x.write_numbers env).yields) h).numbers
  have hdrawings : ((paragraphsOf d.body).flatMap (·.items)).flatMap ParagraphItem.drawings =
      drawingsOf d.body := List.flatMap_assoc
  have hgroups : ((paragraphsOf d.body).flatMap (·.items)).flatMap ParagraphItem.drawingGroups =
      (paragraphsOf d.body).flatMap fun p ↦ p.items.flatMap ParagraphItem.drawingGroups :=
    List.flatMap_assoc
  rw [hdrawings, hgroups] at hnumbers
  refine ⟨hnumbers, ?_⟩
  rw [hnumbers, nodup_numbering_iff]
  constructor
  · intro hgroup p hp id label hlabel
    refine (ParagraphItem.forall_drawingGroups_iff _).mp (fun g hg ↦ ?_) id label rfl
    exact hgroup g (List.mem_flatMap.mpr ⟨p, hp, List.mem_flatMap.mpr ⟨_, hlabel, hg⟩⟩)
  · intro hlabels g hg
    obtain ⟨p, hp, hgp⟩ := List.mem_flatMap.mp hg
    obtain ⟨x, hx, hgx⟩ := List.mem_flatMap.mp hgp
    refine x.forall_drawingGroups_iff.mpr (fun id label hlabel ↦ ?_) g hgx
    exact hlabels p hp id label (hlabel ▸ hx)

/-- An image in a paragraph, and then a link with two images for its label. -/
def pairedImages : List Block :=
  [.paragraph [.image "http://b/c.png" none [],
    .link "http://a/" none [.image "http://b/d.png" none [], .image "http://b/e.png" none []]]]

theorem drawings_numbered_pairedImages :
    ∃ s d, build sameImage pairedImages = (s, .ok d) ∧
      (drawingsOf d.body).map (·.number) =
        numbering 0 ((paragraphsOf d.body).flatMap fun p ↦
          p.items.flatMap ParagraphItem.drawingGroups) ∧
      (((drawingsOf d.body).map (·.number)).Nodup ↔
        ∀ p ∈ paragraphsOf d.body, ∀ id label, .hyperlink id label ∈ p.items →
          (label.flatMap Run.drawings).length ≤ 1) := by
  have hbuilt : (build sameImage pairedImages).2.toOption.map (fun _ ↦ ()) = some () := by
    decide +kernel
  obtain ⟨s, d, hbuild, -⟩ := exists_build_of_map hbuilt
  exact ⟨s, d, hbuild, drawings_numbered hbuild⟩

/-- The two images in the label have the same number. -/
theorem pairedImages_numbers :
    ∃ s d, build sameImage pairedImages = (s, .ok d) ∧
      (drawingsOf d.body).map (·.number) = [1, 2, 2] ∧
      ¬((drawingsOf d.body).map (·.number)).Nodup := by
  have hnumbers : (build sameImage pairedImages).2.toOption.map
      (fun d ↦ (drawingsOf d.body).map (·.number)) = some [1, 2, 2] := by decide +kernel
  obtain ⟨s, d, hbuild, hdrawn⟩ := exists_build_of_map hnumbers
  exact ⟨s, d, hbuild, hdrawn, by rw [hdrawn]; decide⟩

end Folio
