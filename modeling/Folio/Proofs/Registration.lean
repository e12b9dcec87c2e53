import Folio.Proofs.Relationships
import Folio.Proofs.Writer

/-!
# What labels register

However writing a label ends, it only adds relationships, no hyperlink comes to use one, and what it
draws has been added by it (`RunWriter.registers`). Taking a label back gives up the relationships
of its drawings and the one to the target of the link (`takeBack_relationships`).
-/

set_option autoImplicit false
set_option relaxedAutoImplicit false

namespace Folio

open Word

/-! ### What is registered -/

/-- Relationships are only added, none for hyperlinks of the document, and what is drawn has been
added. -/
structure Registers (s : RenderState) (runs : List Run) (t : RenderState) : Prop where
  linked : t.linked = s.linked
  relationships : s.relationships <+: t.relationships
  distinct : s.relationships.Distinct → t.relationships.Distinct
  drawn : ∀ id ∈ drawnRelationships runs, id ∈ t.relationships.ids ∧ id ∉ s.relationships.ids

namespace Registers

variable {s t u : RenderState}

/-- More relationships have more numbers. -/
theorem ids_subset {rels more : Relationships} (h : rels <+: more) : rels.ids ⊆ more.ids := by
  obtain ⟨rest, rfl⟩ := h
  simp

/-- Runs that draw nothing may be written in a state with the same relationships. -/
theorem of_eq {runs : List Run} (hruns : runs.flatMap Run.drawings = [])
    (hlinked : t.linked = s.linked) (hrelationships : t.relationships = s.relationships) :
    Registers s runs t where
  linked := hlinked
  relationships := hrelationships ▸ List.prefix_refl _
  distinct := by rw [hrelationships]; exact id
  drawn := by simp [drawnRelationships_eq, hruns]

theorem append {v w : List Run} (h : Registers s v t) (h' : Registers t w u) :
    Registers s (v ++ w) u where
  linked := h'.linked.trans h.linked
  relationships := h.relationships.trans h'.relationships
  distinct := h'.distinct ∘ h.distinct
  drawn id hid := by
    rw [drawnRelationships_eq, List.flatMap_append, List.map_append, List.mem_append,
      ← drawnRelationships_eq, ← drawnRelationships_eq] at hid
    rcases hid with hv | hw
    · exact ⟨ids_subset h'.relationships (h.drawn id hv).1, (h.drawn id hv).2⟩
    · exact ⟨(h'.drawn id hw).1, fun hs ↦ (h'.drawn id hw).2 (ids_subset h.relationships hs)⟩

/-- Registering composes along sequences of steps. -/
theorem sequential : Step.Sequential Registers :=
  ⟨fun _ ↦ of_eq rfl rfl rfl, append⟩

/-- Drawing an image registers it, unless the registry refuses it. -/
theorem draw {env : Surroundings} {url : String} {kind : ImageKind} {content : Bytes}
    {drawing : Option Drawing} (h : drawImage env url kind content s = (t, drawing))
    {runs : List Run} (hruns : runs.flatMap Run.drawings = drawing.toList) :
    Registers s runs t := by
  rcases drawImage_spec env url kind content s with ⟨n, hspec, -⟩ | ⟨n, d, hspec, -, hid⟩
  · rw [hspec] at h
    cases h
    exact of_eq hruns rfl rfl
  · rw [hspec] at h
    cases h
    refine ⟨rfl, Relationships.prefix_register _ _ _ _, fun hs ↦ hs.register _ _ _, ?_⟩
    intro id hmem
    rw [drawnRelationships_eq, hruns] at hmem
    obtain ⟨picture, hpicture, rfl⟩ := List.mem_map.mp hmem
    rw [(hid picture (Option.mem_toList.mp hpicture)).1]
    exact ⟨by simp [Relationships.register, Relationships.ids], s.relationships.nextId_not_mem⟩

/-- What idle runs, loads and drawings register composes. -/
theorem recording (env : Surroundings) : Recording env Registers where
  toSequential := sequential
  idle h := of_eq h.drawings h.linked h.relationships
  load h := of_eq rfl (linked_of_load h) (relationships_of_load h)
  draw {_ _ _ _ _ drawing} h := draw h (by cases drawing <;> rfl)

end Registers

/-- However writing runs ends, what it has registered has been added. -/
theorem RunWriter.registers {env : Surroundings} {attached : Bool} {α : Type} {step : Step Run α}
    (h : RunWriter env attached step) : step.Obeys Registers :=
  h.obeys (Registers.recording env)

/-! ### Taking a label back -/

namespace Word.Relationships

/-- Giving up numbers keeps the relationships that hyperlinks share and those of other numbers. -/
theorem foldl_drop_eq (rels : Relationships) (uses ids : List Nat) :
    ids.foldl (fun rels i ↦ drop rels uses i) rels =
      rels.filter fun r ↦ r.id ∉ ids ∨ 2 ≤ uses.count r.id := by
  induction ids generalizing rels with
  | nil => simp
  | cons i ids ih =>
    have hdrop : drop rels uses i = rels.filter fun r ↦ r.id ≠ i ∨ 2 ≤ uses.count r.id := by
      unfold drop
      split
      · next hcount =>
        refine List.filter_congr fun r _ ↦ ?_
        by_cases hid : r.id = i
        · simp [hid, hcount]
        · simp [hid]
      · next hcount =>
        refine (List.filter_eq_self.mpr fun r _ ↦ ?_).symm
        by_cases hid : r.id = i
        · simp [hid, Nat.le_of_not_lt hcount]
        · simp [hid]
    rw [List.foldl_cons, ih, hdrop, List.filter_filter]
    refine List.filter_congr fun r _ ↦ ?_
    simp only [List.mem_cons, not_or]
    grind

end Word.Relationships

/-- A relationship that there is not is used by one hyperlink of the document at most. -/
def RenderState.Single (s : RenderState) : Prop :=
  ∀ id, id ∉ s.relationships.ids → s.linked.count id ≤ 1

theorem labelStart_relationships (url : String) (s : RenderState) :
    (labelStart url s).relationships = (s.relationships.relate (Url.resolved url)).1 := rfl

theorem labelStart_linked (url : String) (s : RenderState) :
    (labelStart url s).linked = s.linked := by
  obtain ⟨log, hlog⟩ := noteTarget_eq url s
  rw [labelStart, hlog]

section TakeBack

variable {s t : RenderState} {url : String} {runs : List Run}

/-- The number of the relationship to the target of a link is in use before exactly if the target
has a relationship. -/
theorem targetId_mem_iff (url : String) (s : RenderState) :
    targetId url s ∈ s.relationships.ids ↔
      s.relationships.external? (Url.resolved url) ≠ none := by
  unfold targetId Relationships.relate
  rcases hexternal : s.relationships.external? (Url.resolved url) with _ | r
  · simpa using s.relationships.nextId_not_mem
  · have hmem : r.id ∈ s.relationships.ids :=
      List.mem_map_of_mem (Relationships.external?_eq_some hexternal).1
    simpa using hmem

/-- A relationship that is new for the target of a link is not shared, and goes. -/
theorem filter_relate (hs : s.Single) :
    ((s.relationships.relate (Url.resolved url)).1.filter fun r ↦
      r.id ≠ targetId url s ∨ 2 ≤ s.linked.count (targetId url s)) =
    s.relationships.filter fun r ↦
      r.id ≠ targetId url s ∨ 2 ≤ s.linked.count (targetId url s) := by
  unfold targetId Relationships.relate
  split
  · rfl
  · have hcount := hs _ s.relationships.nextId_not_mem
    simp [Nat.lt_succ_of_le hcount]

/-- What is left when a label is taken back: the relationships before, without the one to the target
of the link unless two hyperlinks share it, and those that the label added and does not draw. -/
theorem takeBack_relationships (hdistinct : s.relationships.Distinct) (hs : s.Single)
    (h : Registers (labelStart url s) runs t) :
    ∃ added, t.relationships = (labelStart url s).relationships ++ added ∧
      (∀ r ∈ added, r.id ∉ (labelStart url s).relationships.ids) ∧
      (takeBack (targetId url s) runs t).relationships =
        (s.relationships.filter fun r ↦
          r.id ≠ targetId url s ∨ 2 ≤ s.linked.count (targetId url s)) ++
        added.filter fun r ↦ r.id ∉ drawnRelationships runs := by
  obtain ⟨added, hadded⟩ := h.relationships
  have hlinked : t.linked = s.linked := h.linked.trans (labelStart_linked url s)
  have hnodup := (h.distinct (hdistinct.relate _)).nodup_ids
  rw [← hadded, Relationships.ids_append, List.nodup_append] at hnodup
  have hnew : ∀ r ∈ added, r.id ∉ (labelStart url s).relationships.ids := fun r hr hold ↦
    hnodup.2.2 _ hold _ (List.mem_map_of_mem hr) rfl
  refine ⟨added, hadded.symm, hnew, ?_⟩
  simp only [takeBack, Relationships.foldl_drop_eq, ← hadded, hlinked, List.filter_append]
  congr 1
  · rw [← filter_relate hs, ← labelStart_relationships]
    refine List.filter_congr fun r hr ↦ ?_
    have hold : r.id ∈ (labelStart url s).relationships.ids := List.mem_map_of_mem hr
    have hundrawn : r.id ∉ drawnRelationships runs := fun hdrawn ↦ (h.drawn _ hdrawn).2 hold
    by_cases hid : r.id = targetId url s <;> simp [hid, hundrawn]
  · refine List.filter_congr fun r hr ↦ ?_
    have hother : r.id ≠ targetId url s := fun hid ↦
      hnew r hr (hid ▸ Relationships.relate_mem_ids _ _)
    have hcount : s.linked.count r.id ≤ 1 :=
      hs _ fun hold ↦ hnew r hr (Registers.ids_subset (Relationships.prefix_relate _ _) hold)
    simp [hother, Nat.lt_succ_of_le hcount]

/-- Every relationship that there is in a later state and not in an earlier one belongs to a drawing
of a sequence of runs. -/
def DrawsAll (s : RenderState) (runs : List Run) (t : RenderState) : Prop :=
  ∀ r ∈ t.relationships, r ∉ s.relationships → r.id ∈ drawnRelationships runs

/-- Drawing everything is drawing what has been added. -/
theorem drawsAll_iff {added : Relationships} (hadded : t.relationships = s.relationships ++ added)
    (hnew : ∀ r ∈ added, r.id ∉ s.relationships.ids) :
    DrawsAll s runs t ↔ ∀ r ∈ added, r.id ∈ drawnRelationships runs := by
  unfold DrawsAll
  rw [hadded]
  constructor
  · intro hall r hr
    exact hall r (List.mem_append_right _ hr) fun hold ↦ hnew r hr (List.mem_map_of_mem hold)
  · intro hall r hr hold
    exact hall r ((List.mem_append.mp hr).resolve_left hold)

/-- No relationship goes exactly if the target of the link had none, or one that two hyperlinks
share. -/
theorem filter_kept_eq_iff (url : String) (s : RenderState) :
    (s.relationships.filter fun r ↦
      r.id ≠ targetId url s ∨ 2 ≤ s.linked.count (targetId url s)) = s.relationships ↔
      s.relationships.external? (Url.resolved url) = none ∨
        2 ≤ s.linked.count (targetId url s) := by
  rw [List.filter_eq_self]
  constructor
  · intro hall
    by_contra hcontrary
    obtain ⟨hrelated, hcount⟩ := not_or.mp hcontrary
    obtain ⟨r, hr, hid⟩ := Relationships.mem_ids.mp ((targetId_mem_iff url s).mpr hrelated)
    simpa [hid, hcount] using hall r hr
  · rintro (hnone | hcount) r hr
    · have hother : r.id ≠ targetId url s := fun hid ↦
        (targetId_mem_iff url s).mp (hid ▸ List.mem_map_of_mem hr) hnone
      simp [hother]
    · simp [hcount]

/-- Taking a label back restores the relationships exactly if the target of the link had none, or
one that two hyperlinks share, and every image that the label registered is drawn in it. -/
theorem takeBack_eq_iff (hdistinct : s.relationships.Distinct) (hs : s.Single)
    (h : Registers (labelStart url s) runs t) :
    (takeBack (targetId url s) runs t).relationships = s.relationships ↔
      (s.relationships.external? (Url.resolved url) = none ∨
        2 ≤ s.linked.count (targetId url s)) ∧ DrawsAll (labelStart url s) runs t := by
  obtain ⟨added, hadded, hnew, htake⟩ := takeBack_relationships hdistinct hs h
  rw [htake, drawsAll_iff hadded hnew, ← filter_kept_eq_iff]
  constructor
  · intro heq
    have hnone : (added.filter fun r ↦ r.id ∉ drawnRelationships runs) = [] := by
      refine List.eq_nil_iff_forall_not_mem.mpr fun r hr ↦ ?_
      have hold : r ∈ s.relationships := by
        rw [← heq]
        exact List.mem_append_right _ hr
      exact hnew r (List.mem_filter.mp hr).1 (Registers.ids_subset
        (Relationships.prefix_relate _ _) (List.mem_map_of_mem hold))
    rw [hnone, List.append_nil] at heq
    exact ⟨heq, by simpa using List.filter_eq_nil_iff.mp hnone⟩
  · rintro ⟨heq, hall⟩
    rw [heq, List.filter_eq_nil_iff.mpr (by simpa using hall), List.append_nil]

/-- When a label is taken back, a number goes on leading where it led exactly if it is not that of
the target of the link, or the target had none before, or two hyperlinks share it. -/
theorem takeBack_target?_eq_iff (hdistinct : s.relationships.Distinct) (hs : s.Single)
    (h : Registers (labelStart url s) runs t) {id : Nat} (hid : id ∈ s.relationships.ids) :
    (takeBack (targetId url s) runs t).relationships.target? id = s.relationships.target? id ↔
      s.relationships.external? (Url.resolved url) = none ∨
        2 ≤ s.linked.count (targetId url s) ∨ id ≠ targetId url s := by
  obtain ⟨added, -, hnew, htake⟩ := takeBack_relationships hdistinct hs h
  obtain ⟨r, hr, rfl⟩ := Relationships.mem_ids.mp hid
  rw [hdistinct.target?_of_mem hr]
  by_cases hkept : r.id ≠ targetId url s ∨ 2 ≤ s.linked.count (targetId url s)
  · have hmem : r ∈ (takeBack (targetId url s) runs t).relationships := by
      rw [htake]
      exact List.mem_append_left _ (List.mem_filter.mpr ⟨hr, by simpa using hkept⟩)
    have hleft : (takeBack (targetId url s) runs t).relationships.Distinct :=
      (h.distinct (hdistinct.relate _)).foldl_drop _ _
    rw [hleft.target?_of_mem hmem]
    simp only [true_iff]
    exact .inr hkept.symm
  · obtain ⟨hsame, hcount⟩ := not_or.mp hkept
    have hgone : r.id ∉ (takeBack (targetId url s) runs t).relationships.ids := by
      rw [htake, Relationships.ids_append, List.mem_append]
      rintro (hleft | hadd)
      · obtain ⟨q, hq, hqid⟩ := Relationships.mem_ids.mp hleft
        have hqkept := (List.mem_filter.mp hq).2
        rw [hqid, decide_eq_true_eq] at hqkept
        exact hkept hqkept
      · obtain ⟨q, hq, hqid⟩ := Relationships.mem_ids.mp hadd
        refine hnew q (List.mem_filter.mp hq).1 ?_
        rw [hqid]
        exact Registers.ids_subset (Relationships.prefix_relate _ _) hid
    rw [Relationships.target?_eq_none hgone]
    have hrelated := (targetId_mem_iff url s).mp (not_not.mp hsame ▸ hid)
    simp only [reduceCtorEq, false_iff]
    tauto

end TakeBack

end Folio
