import Folio.Proofs.References
import Folio.Proofs.Rollback
import Mathlib.Logic.Relation

/-!
# Numbers of image parts

Image parts come and go in two ways only: one is registered, behind those that there are and with the
least positive number that none of them has, or some are given up (`PartsChange`). Neither makes two
parts share a number, so in no session that can be reached do they (`image_numbers_distinct`), although
the numbers of labels that are taken back are handed out again. A step of a session touches none of the
parts that there were before it (`RenderState.GrowsMedia`).
-/

set_option autoImplicit false
set_option relaxedAutoImplicit false

namespace Folio

namespace Word

/-! ### Names of parts -/

/-- The digits of a number end where its name goes on with a full stop. -/
theorem takeWhile_isDigit_toString (n : Nat) (rest : List Char) :
    ((toString n).toList ++ '.' :: rest).takeWhile Char.isDigit = (toString n).toList := by
  have hdigits : ∀ c ∈ (toString n).toList, c.isDigit = true := fun c ↦ isDigit_of_mem_toString
  rw [List.takeWhile_append_of_pos hdigits]
  simp [Char.isDigit]

/-- Parts with the same name have the same number, whatever follows it. -/
theorem ImagePart.number_eq_of_path_eq {i j : ImagePart} (h : i.path = j.path) :
    i.number = j.number := by
  have hchars := congrArg String.toList h
  simp only [ImagePart.path, String.toList_append, List.append_assoc] at hchars
  have hbehind := List.append_cancel_left hchars
  have hdigits (part : ImagePart) :
      ((toString part.number).toList ++ (".".toList ++ part.fileSuffix.toList)).takeWhile
        Char.isDigit = (toString part.number).toList :=
    takeWhile_isDigit_toString part.number part.fileSuffix.toList
  have hsame : (toString i.number).toList = (toString j.number).toList := by
    rw [← hdigits i, ← hdigits j, hbehind]
  exact eq_of_toString_eq (String.toList_inj.mp hsame)

/-- Parts with distinct numbers have distinct names. -/
theorem nodup_paths {parts : List ImagePart} (h : (parts.map (·.number)).Nodup) :
    (parts.map ImagePart.path).Nodup := by
  refine List.pairwise_map.mpr ((List.pairwise_map.mp h).imp fun {i j} hne hpath ↦ ?_)
  exact hne (ImagePart.number_eq_of_path_eq hpath)

/-! ### Changes of parts -/

/-- One change of the image parts of a document: a part is registered with the least positive number
that is not in use, or parts are given up. -/
inductive PartsChange (parts : List ImagePart) : List ImagePart → Prop
  | registered (part : ImagePart)
      (h : IsLeast {n | 0 < n ∧ n ∉ parts.map (·.number)} part.number) :
      PartsChange parts (parts ++ [part])
  | givenUp {fewer : List ImagePart} (h : List.Sublist fewer parts) : PartsChange parts fewer

/-- No change makes two parts share a number. -/
theorem PartsChange.nodup {parts after : List ImagePart} (h : PartsChange parts after)
    (hparts : (parts.map (·.number)).Nodup) : (after.map (·.number)).Nodup := by
  cases h with
  | registered part hleast =>
    rw [List.map_append, List.nodup_append]
    refine ⟨hparts, List.nodup_singleton _, ?_⟩
    rintro n hn m hm rfl
    rw [List.map_singleton, List.mem_singleton] at hm
    exact hleast.1.2 (hm ▸ hn)
  | givenUp hfewer => exact hparts.sublist (hfewer.map _)

/-- No sequence of changes makes two parts share a number. -/
theorem nodup_of_changes {parts after : List ImagePart}
    (h : Relation.ReflTransGen PartsChange parts after) (hparts : (parts.map (·.number)).Nodup) :
    (after.map (·.number)).Nodup := by
  induction h with
  | refl => exact hparts
  | tail _ hchange ih => exact hchange.nodup ih

namespace Relationships

variable {rels : Relationships}

@[simp] theorem images_append (rels more : Relationships) :
    images (rels ++ more) = rels.images ++ more.images := List.filterMap_append

/-- A relationship to an external target brings no part. -/
theorem images_relate (rels : Relationships) (uri : String) :
    (rels.relate uri).1.images = rels.images := by
  unfold relate
  split
  · rfl
  · simp [images]

/-- A new image part stands behind those that there are. -/
theorem images_register (rels : Relationships) (content : Bytes) (contentType fileSuffix : String) :
    (rels.register content contentType fileSuffix).1.images =
      rels.images ++ [⟨rels.nextImage, fileSuffix, contentType, content⟩] := by
  rw [register, images_append]
  rfl

/-- A new image part takes the least positive number that is not in use. -/
theorem isLeast_nextImage (rels : Relationships) :
    IsLeast {n | 0 < n ∧ n ∉ rels.images.map (·.number)} rels.nextImage :=
  isLeast_leastFree 1 _

/-- The search for a number is over after as many steps as there are parts and one more. -/
theorem nextImage_le (rels : Relationships) : rels.nextImage ≤ rels.images.length + 1 := by
  obtain ⟨k, hk, heq, -⟩ := leastFree_spec 1 (rels.images.map (·.number))
  rw [List.length_map] at hk
  rw [nextImage, heq]
  omega

/-- Giving up relationships that lead to no image gives up no part. -/
theorem images_filter {p : Relationship → Bool}
    (h : ∀ r ∈ rels, ∀ part, r.target = .image part → p r = true) :
    images (rels.filter p) = rels.images := by
  simp only [images, List.filterMap_filter]
  refine List.filterMap_congr fun r hr ↦ ?_
  cases htarget : r.target with
  | external uri => simp
  | image part => simp [h r hr part htarget]

end Relationships

end Word

open Word

/-! ### Growing media -/

/-- A later state: the parts that there were are there as they were, and those that there are came
about by one change after another. -/
structure RenderState.GrowsMedia (s t : RenderState) : Prop where
  kept : s.relationships.images <+: t.relationships.images
  changes : Relation.ReflTransGen PartsChange s.relationships.images t.relationships.images

namespace RenderState.GrowsMedia

variable {s t u : RenderState}

theorem of_eq (h : t.relationships.images = s.relationships.images) : s.GrowsMedia t where
  kept := h ▸ List.prefix_refl _
  changes := h ▸ .refl

theorem trans (h : s.GrowsMedia t) (hrest : t.GrowsMedia u) : s.GrowsMedia u where
  kept := h.kept.trans hrest.kept
  changes := h.changes.trans hrest.changes

/-- Growing media composes along sequences of steps. -/
theorem sequential {ω : Type} :
    Step.Sequential fun (s : RenderState) (_ : List ω) (t : RenderState) ↦ s.GrowsMedia t :=
  ⟨fun _ ↦ of_eq rfl, trans⟩

/-- Drawing an image registers one part, or none. -/
theorem draw {env : Surroundings} {url : String} {kind : ImageKind} {content : Bytes}
    {drawing : Option Drawing} (hdraw : drawImage env url kind content s = (t, drawing)) :
    s.GrowsMedia t := by
  rcases drawImage_spec env url kind content s with ⟨n, hspec, -⟩ | ⟨n, d, hspec, -, -⟩
  · rw [hspec] at hdraw
    cases hdraw
    exact of_eq rfl
  · rw [hspec] at hdraw
    cases hdraw
    have himages := s.relationships.images_register content kind.mediaType kind.fileSuffix
    refine ⟨?_, .single ?_⟩
    · rw [himages]
      exact List.prefix_append _ _
    · rw [himages]
      exact .registered _ s.relationships.isLeast_nextImage

/-- Idle runs, loads and drawings make media grow. -/
theorem recording (env : Surroundings) : Recording env fun s _ t ↦ s.GrowsMedia t where
  toSequential := sequential
  idle h := of_eq (congrArg _ h.relationships)
  load h := of_eq (congrArg _ (relationships_of_load h))
  draw := draw

end RenderState.GrowsMedia

/-- However writing runs ends, the parts that there were are kept. -/
theorem RunWriter.growsMedia {env : Surroundings} {attached : Bool} {α : Type} {step : Step Run α}
    (h : RunWriter env attached step) : step.Obeys fun s _ t ↦ s.GrowsMedia t :=
  h.obeys (RenderState.GrowsMedia.recording env)

section TakeBack

variable {s t : RenderState} {url : String} {runs : List Run}

/-- The number of the relationship to the target of a link leads to no image. -/
theorem targetId_ne_of_image (hdistinct : s.relationships.Distinct) {r : Relationship}
    (hr : r ∈ s.relationships) {part : ImagePart} (htarget : r.target = .image part) :
    r.id ≠ targetId url s := by
  intro hid
  have hexternal := hdistinct.target?_relate (Url.resolved url)
  have hkept := Relationships.target?_mono (s.relationships.prefix_relate (Url.resolved url))
    (hdistinct.target?_of_mem hr)
  rw [htarget] at hkept
  rw [hid] at hkept
  exact nomatch (hkept.symm.trans hexternal : some (Target.image part) = some (.external _))

/-- Taking a label back gives up parts of the label only. -/
theorem growsMedia_takeBack (hdistinct : s.relationships.Distinct) (hs : s.Single)
    (h : Registers (labelStart url s) runs t) (hgrows : (labelStart url s).GrowsMedia t) :
    s.GrowsMedia (takeBack (targetId url s) runs t) := by
  obtain ⟨added, hadded, -, htake⟩ := takeBack_relationships hdistinct hs h
  have hstart : (labelStart url s).relationships.images = s.relationships.images :=
    s.relationships.images_relate _
  have hkept : Relationships.images (s.relationships.filter fun r ↦
      r.id ≠ targetId url s ∨ 2 ≤ s.linked.count (targetId url s)) = s.relationships.images :=
    Relationships.images_filter fun r hr part htarget ↦ by
      simp [targetId_ne_of_image hdistinct hr htarget]
  have hchanges := hgrows.changes
  rw [hadded, Relationships.images_append, hstart] at hchanges
  constructor
  · rw [htake, Relationships.images_append, hkept]
    exact List.prefix_append _ _
  · refine hchanges.tail (.givenUp ?_)
    rw [htake, Relationships.images_append, hkept]
    exact (List.filter_sublist.filterMap _).append_left _

end TakeBack

/-- A later state with grown media, in which relationships still are distinct and counted. -/
def KeepsMedia (s t : RenderState) : Prop :=
  s.relationships.Distinct → s.Single → t.relationships.Distinct ∧ t.Single ∧ s.GrowsMedia t

/-- A hyperlink keeps media, whether it is built, refused or taken back. -/
theorem writeHyperlink_growsMedia (url : String) {env : Surroundings} {label : Step Run Unit}
    (h : RunWriter env false label) (s : RenderState) (hdistinct : s.relationships.Distinct)
    (hs : s.Single) : s.GrowsMedia (writeHyperlink env url label s).state := by
  have hstart : s.GrowsMedia (labelStart url s) := .of_eq (s.relationships.images_relate _)
  have hlabel := h.growsMedia (labelStart url s)
  rcases writeHyperlink_cases env url label s with
    ⟨-, log, hlink⟩ | ⟨-, e, log, -, hlink⟩ | ⟨-, -, hlink⟩
  all_goals rw [hlink]
  · exact .of_eq rfl
  · have htaken := growsMedia_takeBack hdistinct hs (h.registers (labelStart url s)) hlabel
    exact htaken.trans (.of_eq rfl)
  · exact hstart.trans (hlabel.trans (.of_eq rfl))

/-- Documents are built with their media kept. -/
theorem building_keepsMedia (env : Surroundings) : Building env fun s _ t ↦ KeepsMedia s t where
  nil _ hdistinct hs := ⟨hdistinct, hs, .of_eq rfl⟩
  append h h' hdistinct hs := by
    obtain ⟨hdistinct, hs, hgrows⟩ := h hdistinct hs
    obtain ⟨hdistinct, hs, hrest⟩ := h' hdistinct hs
    exact ⟨hdistinct, hs, hgrows.trans hrest⟩
  runs h s hdistinct hs :=
    have hkeeps := (h.registers s).keeps
    ⟨hkeeps.distinct hdistinct, hkeeps.single hs, h.growsMedia s⟩
  hyperlink url {_} h s hdistinct hs :=
    have hkeeps := (RenderState.Keeps.building env).hyperlink url h s
    ⟨hkeeps.distinct hdistinct, hkeeps.single hs, writeHyperlink_growsMedia url h s hdistinct hs⟩

/-! ### Sessions -/

/-- A registration that is not refused adds one part, with the given content and with the least
positive number that is not in use. -/
theorem registerImage_adds {env : Surroundings} {kind : ImageKind} {content : Bytes}
    {s t : RenderState} {id : Nat} (h : registerImage env kind content s = (t, some id)) :
    ∃ part, t.relationships.images = s.relationships.images ++ [part] ∧
      t.relationships.target? id = some (.image part) ∧ part.content = content ∧
      part.contentType = kind.mediaType ∧ part.fileSuffix = kind.fileSuffix ∧
      part.number = s.relationships.nextImage := by
  by_cases haccept : env.faults.register = none ∧ env.faults.relate s.registrations = none
  · rw [registerImage_of_accepted haccept.1 haccept.2] at h
    cases h
    exact ⟨_, s.relationships.images_register content kind.mediaType kind.fileSuffix,
      s.relationships.target?_append_new _, rfl, rfl, rfl, rfl⟩
  · obtain ⟨n, hrefused⟩ := registerImage_of_refused haccept kind content
    rw [hrefused] at h
    cases h

namespace Session

/-- A step of a tidy session keeps its media. -/
theorem Tidy.growsMedia {x : Session} (h : x.Tidy) (env : Surroundings) (s : SessionStep) :
    x.state.GrowsMedia (x.step env s).1.state := by
  have hkeeps := step_of_building (fun web ↦ building_keepsMedia { env with web := web })
    (fun _ _ hdistinct hs ↦ ⟨hdistinct, hs, .of_eq rfl⟩) x s
  exact (hkeeps h.distinct h.single).2.2

/-- In no session that can be reached do two image parts share a number. -/
theorem Reachable.nodup_numbers {env : Surroundings} {x : Session} (h : x.Reachable env) :
    (x.state.relationships.images.map (·.number)).Nodup := by
  induction h with
  | start => exact List.nodup_nil
  | step hx s ih => exact nodup_of_changes (hx.tidy.growsMedia env s).changes ih

end Session

/-- In every session that can be reached, the image parts have distinct numbers and thus distinct
names. Whatever is done next, a step keeps them as they are, and what it does to the parts is a
sequence of registrations with the least positive number not in use, and of parts given up. Wherever a
registration succeeds, its relationship leads to a part with the given content and with that number,
which is found among as many numbers as there are parts and one more. -/
theorem image_numbers_distinct {env : Surroundings} {x : Session} (hx : x.Reachable env) :
    (x.state.relationships.images.map (·.number)).Nodup ∧
    (x.state.relationships.images.map ImagePart.path).Nodup ∧
    (∀ now s, x.state.GrowsMedia (x.step now s).1.state) ∧
    ∀ now kind content t u id, registerImage now kind content t = (u, some id) →
      ∃ part, u.relationships.images = t.relationships.images ++ [part] ∧
        u.relationships.target? id = some (.image part) ∧ part.content = content ∧
        part.contentType = kind.mediaType ∧ part.fileSuffix = kind.fileSuffix ∧
        IsLeast {n | 0 < n ∧ n ∉ t.relationships.images.map (·.number)} part.number ∧
        part.number ≤ t.relationships.images.length + 1 := by
  refine ⟨hx.nodup_numbers, nodup_paths hx.nodup_numbers, hx.tidy.growsMedia, ?_⟩
  intro now kind content t u id hregister
  obtain ⟨part, himages, htarget, hcontent, htype, hsuffix, hnumber⟩ := registerImage_adds hregister
  refine ⟨part, himages, htarget, hcontent, htype, hsuffix, ?_, ?_⟩
  · rw [hnumber]
    exact t.relationships.isLeast_nextImage
  · rw [hnumber]
    exact t.relationships.nextImage_le

/-- A session with an image, a label with an image of another kind that is taken back, and an image
of that kind again. -/
def remadeImage : Session :=
  [SessionStep.image "http://b/c.png" "" .plain false,
    .link "http://a/" [] [.image "http://b/d.gif" none []] .plain true false,
    .image "http://b/e.gif" "" .plain false].foldl
      (fun x s ↦ (x.step sameImage s).1) { web := sameImage.web }

theorem remadeImage_reachable : remadeImage.Reachable sameImage :=
  .step (.step (.step .start _) _) _

/-- The number of the part that was taken back is handed out again. -/
theorem image_numbers_distinct_remadeImage :
    remadeImage.Reachable sameImage ∧
      remadeImage.state.relationships.images.map ImagePart.path =
        ["media/image1.png", "media/image2.gif"] ∧
      (remadeImage.state.relationships.images.map (·.number)).Nodup :=
  ⟨remadeImage_reachable, by decide +kernel, (image_numbers_distinct remadeImage_reachable).1⟩

end Folio
