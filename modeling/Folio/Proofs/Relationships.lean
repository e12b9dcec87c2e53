import Folio.Word.Package
import Mathlib.Data.List.Nodup
import Mathlib.Data.List.Pairwise
import Mathlib.Data.List.Perm.Subperm
import Mathlib.Order.Bounds.Basic

/-!
# Distinct relationships

Relationships are distinct if no two have the same number or the same external target. All that is
done to relationships keeps them distinct: sharing or adding one (`Distinct.relate`,
`Distinct.register`) and giving one up (`Distinct.drop`). Among distinct relationships a number
leads to one target (`Distinct.target?_of_mem`), and an external target has one number
(`Distinct.eq_iff_of_target?`).
-/

set_option autoImplicit false
set_option relaxedAutoImplicit false

namespace Folio.Word

/-- The least free number is found among as many numbers as are in use and one more, and every number
before it is in use. -/
theorem leastFree_spec (start : Nat) (used : List Nat) :
    ∃ k ≤ used.length, leastFree start used = start + k ∧ start + k ∉ used ∧
      ∀ j < k, start + j ∈ used := by
  unfold leastFree
  rcases hfind : ((List.range (used.length + 1)).map (start + ·)).find?
      (fun n ↦ !used.contains n) with _ | n
  · -- Otherwise more numbers would be used than there are.
    have hsubset : (List.range (used.length + 1)).map (start + ·) ⊆ used := by
      intro n hn
      simpa using List.find?_eq_none.mp hfind n hn
    have hnodup : ((List.range (used.length + 1)).map (start + ·)).Nodup :=
      List.nodup_range.map fun m n hmn ↦ Nat.add_left_cancel hmn
    have hlength := (hnodup.subperm hsubset).length_le
    simp only [List.length_map, List.length_range] at hlength
    omega
  · rw [List.find?_map, Option.map_eq_some_iff] at hfind
    obtain ⟨k, hk, rfl⟩ := hfind
    obtain ⟨hfree, hrange, hused⟩ := List.find?_range_eq_some.mp hk
    exact ⟨k, Nat.lt_succ_iff.mp (List.mem_range.mp hrange), rfl, by simpa using hfree,
      fun j hj ↦ by simpa using hused j hj⟩

/-- The least free number is free. -/
theorem leastFree_not_mem (start : Nat) (used : List Nat) : leastFree start used ∉ used := by
  obtain ⟨k, -, heq, hfree, -⟩ := leastFree_spec start used
  rwa [heq]

/-- The least free number is the least of those from the start on that are not in use. -/
theorem isLeast_leastFree (start : Nat) (used : List Nat) :
    IsLeast {n | start ≤ n ∧ n ∉ used} (leastFree start used) := by
  obtain ⟨k, -, heq, hfree, hused⟩ := leastFree_spec start used
  rw [heq]
  refine ⟨⟨Nat.le_add_right _ _, hfree⟩, ?_⟩
  rintro n ⟨hstart, hn⟩
  obtain ⟨j, rfl⟩ := Nat.exists_eq_add_of_le hstart
  exact Nat.add_le_add_left (Nat.le_of_not_lt fun hj ↦ hn (hused j hj)) start

namespace Relationships

variable {rels more : Relationships} {id : Nat} {uri : String}

/-- What a numbered relationship leads to. -/
def target? (rels : Relationships) (id : Nat) : Option Target :=
  (rels.find? fun r ↦ r.id = id).map (·.target)

/-- The content of the image that a numbered relationship leads to. -/
def content? (rels : Relationships) (id : Nat) : Option Bytes :=
  match rels.target? id with
  | some (.image part) => some part.content
  | _ => none

/-- No two relationships have the same number or the same external target. -/
def Distinct (rels : Relationships) : Prop :=
  rels.Pairwise fun r q ↦
    r.id ≠ q.id ∧ ∀ uri, r.target = .external uri → q.target ≠ .external uri

/-! ### Numbers and targets -/

theorem nextId_not_mem (rels : Relationships) : rels.nextId ∉ rels.ids := leastFree_not_mem _ _

theorem mem_ids : id ∈ rels.ids ↔ ∃ r ∈ rels, r.id = id := List.mem_map

@[simp] theorem ids_append (rels more : Relationships) :
    ids (rels ++ more) = rels.ids ++ more.ids := List.map_append

/-- A number that is not in use leads nowhere. -/
theorem target?_eq_none (h : id ∉ rels.ids) : rels.target? id = none := by
  rw [target?, Option.map_eq_none_iff, List.find?_eq_none]
  intro r hr hid
  exact h (mem_ids.mpr ⟨r, hr, of_decide_eq_true hid⟩)

/-- A relationship that is found leads where it leads when more are added. -/
theorem target?_mono {t : Target} (h : rels <+: more) (ht : rels.target? id = some t) :
    more.target? id = some t := by
  obtain ⟨rest, rfl⟩ := h
  simp only [target?, Option.map_eq_some_iff] at ht ⊢
  obtain ⟨r, hfind, htarget⟩ := ht
  exact ⟨r, by rw [List.find?_append, hfind, Option.some_or], htarget⟩

theorem content?_mono {content : Bytes} (h : rels <+: more)
    (hcontent : rels.content? id = some content) : more.content? id = some content := by
  unfold content? at hcontent ⊢
  rcases ht : rels.target? id with _ | t
  · simp [ht] at hcontent
  · rw [target?_mono h ht, ← ht]
    exact hcontent

/-- A new relationship leads to its target. -/
theorem target?_append_new (rels : Relationships) (t : Target) :
    target? (rels ++ [⟨rels.nextId, t⟩]) rels.nextId = some t := by
  have hnone : rels.find? (fun r ↦ r.id = rels.nextId) = none :=
    Option.map_eq_none_iff.mp (target?_eq_none rels.nextId_not_mem)
  rw [target?, List.find?_append, hnone]
  simp

theorem external?_eq_some {r : Relationship} (h : rels.external? uri = some r) :
    r ∈ rels ∧ r.target = .external uri :=
  ⟨List.mem_of_find?_eq_some h, by simpa using List.find?_some h⟩

theorem external?_eq_none (h : rels.external? uri = none) {r : Relationship} (hr : r ∈ rels) :
    r.target ≠ .external uri := by
  simpa using List.find?_eq_none.mp h r hr

/-- Sharing or adding a relationship keeps those that there are. -/
theorem prefix_relate (rels : Relationships) (uri : String) : rels <+: (rels.relate uri).1 := by
  unfold relate
  split
  · exact List.prefix_refl _
  · exact List.prefix_append _ _

/-- The number of the relationship to a target is in use. -/
theorem relate_mem_ids (rels : Relationships) (uri : String) :
    (rels.relate uri).2 ∈ (rels.relate uri).1.ids := by
  unfold relate
  split
  · next r hsome => exact mem_ids.mpr ⟨r, (external?_eq_some hsome).1, rfl⟩
  · simp [ids]

theorem prefix_register (rels : Relationships) (content : Bytes) (contentType fileSuffix : String) :
    rels <+: (rels.register content contentType fileSuffix).1 := List.prefix_append _ _

/-- Giving up a relationship leaves the others as they are. -/
theorem drop_sublist (rels : Relationships) (uses : List Nat) (id : Nat) :
    (rels.drop uses id).Sublist rels := by
  unfold Relationships.drop
  split
  · exact List.filter_sublist
  · exact List.Sublist.refl _

/-! ### Distinct relationships -/

theorem distinct_nil : Distinct [] := List.Pairwise.nil

namespace Distinct

/-- Some of distinct relationships are distinct. -/
theorem sublist (h : Distinct rels) (hsub : List.Sublist more rels) : Distinct more :=
  List.Pairwise.sublist hsub h

theorem drop (h : Distinct rels) (uses : List Nat) (id : Nat) : Distinct (rels.drop uses id) :=
  h.sublist (rels.drop_sublist uses id)

/-- Giving up several relationships leaves distinct ones. -/
theorem foldl_drop (h : Distinct rels) (uses ids : List Nat) :
    Distinct (ids.foldl (fun rels i ↦ Relationships.drop rels uses i) rels) := by
  induction ids generalizing rels with
  | nil => exact h
  | cons i ids ih => exact ih (h.drop uses i)

theorem nodup_ids (h : Distinct rels) : rels.ids.Nodup :=
  List.pairwise_map.mpr (h.imp fun hrq ↦ hrq.1)

/-- A new relationship to a target that is no external one yet keeps relationships distinct. -/
theorem append_new (h : Distinct rels) {t : Target}
    (ht : ∀ r ∈ rels, ∀ uri, t = .external uri → r.target ≠ .external uri) :
    Distinct (rels ++ [⟨rels.nextId, t⟩]) := by
  refine List.pairwise_append.mpr ⟨h, List.pairwise_singleton _ _, ?_⟩
  intro r hr q hq
  rw [List.mem_singleton.mp hq]
  refine ⟨fun hid ↦ rels.nextId_not_mem (mem_ids.mpr ⟨r, hr, hid⟩), ?_⟩
  intro uri hexternal huri
  exact ht r hr uri huri hexternal

theorem relate (h : Distinct rels) (uri : String) : Distinct (rels.relate uri).1 := by
  unfold Relationships.relate
  split
  · exact h
  · next hnone =>
    refine h.append_new fun r hr other hother ↦ ?_
    rw [← Target.external.inj hother]
    exact external?_eq_none hnone hr

theorem register (h : Distinct rels) (content : Bytes) (contentType fileSuffix : String) :
    Distinct (rels.register content contentType fileSuffix).1 :=
  h.append_new fun _ _ _ hother ↦ nomatch hother

/-- Two of distinct relationships with the same number are the same. -/
theorem eq_of_id (h : Distinct rels) {r q : Relationship} (hr : r ∈ rels) (hq : q ∈ rels)
    (hid : r.id = q.id) : r = q := List.inj_on_of_nodup_map h.nodup_ids hr hq hid

/-- Two of distinct relationships with the same external target are the same. -/
theorem eq_of_target (h : Distinct rels) {r q : Relationship} (hr : r ∈ rels) (hq : q ∈ rels)
    (hrt : r.target = .external uri) (hqt : q.target = .external uri) : r = q := by
  by_contra hne
  have hsymm : Std.Symm fun r q : Relationship ↦
      ∀ uri, r.target = .external uri → q.target ≠ .external uri :=
    ⟨fun _ _ hrq uri hq hr ↦ hrq uri hr hq⟩
  have hall := (List.Pairwise.imp And.right h).forall
  exact hall hr hq hne uri hrt hqt

/-- A relationship leads to its target. -/
theorem target?_of_mem (h : Distinct rels) {r : Relationship} (hr : r ∈ rels) :
    rels.target? r.id = some r.target := by
  rcases hfind : rels.find? (fun q ↦ q.id = r.id) with _ | q
  · exact absurd (List.find?_eq_none.mp hfind r hr) (by simp)
  · have hq := List.find?_some hfind
    rw [target?, hfind, h.eq_of_id (List.mem_of_find?_eq_some hfind) hr (by simpa using hq)]
    rfl

/-- The relationship to an external target leads there. -/
theorem target?_relate (h : Distinct rels) (uri : String) :
    (rels.relate uri).1.target? (rels.relate uri).2 = some (.external uri) := by
  unfold Relationships.relate
  split
  · next r hsome =>
    obtain ⟨hr, htarget⟩ := external?_eq_some hsome
    rw [h.target?_of_mem hr, htarget]
  · exact rels.target?_append_new _

/-- Numbers that lead to external targets are the same exactly if the targets are. -/
theorem eq_iff_of_target? (h : Distinct rels) {i j : Nat} {u v : String}
    (hi : rels.target? i = some (.external u)) (hj : rels.target? j = some (.external v)) :
    i = j ↔ u = v := by
  have hmem {k : Nat} {w : String} (hk : rels.target? k = some (.external w)) :
      ∃ r ∈ rels, r.id = k ∧ r.target = .external w := by
    obtain ⟨r, hfind, htarget⟩ := Option.map_eq_some_iff.mp hk
    exact ⟨r, List.mem_of_find?_eq_some hfind, by simpa using List.find?_some hfind, htarget⟩
  constructor
  · rintro rfl
    rw [hi] at hj
    exact Target.external.inj (Option.some.inj hj)
  · rintro rfl
    obtain ⟨r, hr, rfl, hrt⟩ := hmem hi
    obtain ⟨q, hq, rfl, hqt⟩ := hmem hj
    rw [h.eq_of_target hr hq hrt hqt]

/-- Hyperlinks that lead to targets share a relationship exactly if they share a target. -/
theorem getElem?_eq_iff (h : Distinct rels) {ids : List Nat} {uris : List String}
    (htargets : ids.map rels.target? = uris.map fun uri ↦ some (.external uri)) (i j : Nat) :
    ids[i]? = ids[j]? ↔ uris[i]? = uris[j]? := by
  have hget (k : Nat) :
      ids[k]?.map rels.target? = uris[k]?.map fun uri ↦ some (.external uri) := by
    rw [← List.getElem?_map, ← List.getElem?_map, htargets]
  have hsame : ∀ {a b : Option Nat} {u v : Option String},
      (a.map rels.target? = u.map fun uri ↦ some (.external uri)) →
      (b.map rels.target? = v.map fun uri ↦ some (.external uri)) → (a = b ↔ u = v) := by
    rintro (_ | a) (_ | b) (_ | u) (_ | v) ha hb <;> simp at ha hb ⊢
    exact h.eq_iff_of_target? ha hb
  exact hsame (hget i) (hget j)

end Distinct

/-- The relationship to a new image leads to its content. -/
theorem content?_register (rels : Relationships) (content : Bytes)
    (contentType fileSuffix : String) :
    (rels.register content contentType fileSuffix).1.content?
      (rels.register content contentType fileSuffix).2 = some content := by
  unfold content? Relationships.register
  rw [target?_append_new]

end Relationships

end Folio.Word
