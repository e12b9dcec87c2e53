import Folio.Proofs.Styling

/-!
# Embedding images

What embedding an image leaves, whatever comes of loading and drawing it. A run that was to show an
image holds its drawing, with one new relationship to one new part for it, or else its caption
(`image_drawn_or_captioned`). Behind a caption the relationships are as before unless the image is
stranded: it has been registered, and then its size or its file name did not fit. Embedding an image
fails only if the image cannot be loaded at all (`LoadFault`), or if the style of its caption cannot
be applied (`image_failures`).
-/

set_option autoImplicit false
set_option relaxedAutoImplicit false

namespace Folio

open Word

variable {env : Surroundings} {s t : RenderState} {url alt : String} {style : RunStyle}
  {attached : Bool}

/-! ### What is registered -/

theorem registrations_of_load {result : Except Failure Fetched}
    (h : loadImage env url s = (t, result)) : t.registrations = s.registrations := by
  obtain ⟨images, requests, log, rfl⟩ := state_of_load h
  rfl

/-- An image that is loaded and that the registry accepts, but whose size or file name does not fit a
document. -/
def Stranded (env : Surroundings) (url : String) (s : RenderState) : Prop :=
  ∃ content mediaType, (loadImage env url s).2 = .ok (.image content mediaType) ∧
    env.faults.register = none ∧ env.faults.relate s.registrations = none ∧
    drawing? env.settings 0 0 (imageFileName url (imageKind url mediaType)) = none

/-- What is not drawn leaves the relationships as they were, unless it is stranded. -/
theorem relationships_of_captioned (h : drawLoaded env url s = (t, .ok none)) :
    t.relationships = s.relationships ↔ ¬Stranded env url s := by
  rcases hload : loadImage env url s with ⟨u, e | ⟨content, mediaType⟩ | why⟩
  · rw [drawLoaded_of_unloaded hload] at h
    cases h
  · rw [drawLoaded_of_image hload] at h
    have hrelationships := relationships_of_load hload
    have hregistrations := registrations_of_load hload
    by_cases haccept : env.faults.register = none ∧ env.faults.relate u.registrations = none
    · obtain ⟨hregister, hrelate⟩ := haccept
      rw [drawImage_of_accepted hregister hrelate] at h
      obtain ⟨ht, hd⟩ := Prod.mk.inj h
      have hundrawn := Except.ok.inj hd
      rw [drawing?_eq, Option.map_eq_none_iff] at hundrawn
      rw [hregistrations] at hrelate
      have hstranded : Stranded env url s :=
        ⟨content, mediaType, congrArg Prod.snd hload, hregister, hrelate, hundrawn⟩
      rw [← ht]
      simp [hstranded, Relationships.register, hrelationships]
    · obtain ⟨n, hdraw⟩ := drawImage_of_refused haccept url (imageKind url mediaType) content
      rw [hdraw] at h
      cases h
      refine iff_of_true hrelationships ?_
      rintro ⟨-, -, -, hregister, hrelate, -⟩
      rw [← hregistrations] at hrelate
      exact haccept ⟨hregister, hrelate⟩
  · rw [drawLoaded_of_missing hload] at h
    cases h
    refine iff_of_true (relationships_of_load hload) ?_
    rintro ⟨content, mediaType, himage, -⟩
    rw [hload] at himage
    cases himage

/-- What is drawn has been loaded, and has one new relationship, to one new part with its content. -/
theorem relationships_of_shown {d : Drawing} (h : drawLoaded env url s = (t, .ok (some d))) :
    ∃ content mediaType part, (loadImage env url s).2 = .ok (.image content mediaType) ∧
      d.relationship = s.relationships.nextId ∧
      t.relationships = s.relationships ++ [⟨d.relationship, .image part⟩] ∧
      part.content = content ∧ part.number = s.relationships.nextImage := by
  rcases hload : loadImage env url s with ⟨u, e | ⟨content, mediaType⟩ | why⟩
  · rw [drawLoaded_of_unloaded hload] at h
    cases h
  · rw [drawLoaded_of_image hload] at h
    by_cases haccept : env.faults.register = none ∧ env.faults.relate u.registrations = none
    · obtain ⟨hregister, hrelate⟩ := haccept
      rw [drawImage_of_accepted hregister hrelate, drawing?_eq] at h
      obtain ⟨rfl, hd⟩ := Prod.mk.inj h
      obtain ⟨picture, -, rfl⟩ := Option.map_eq_some_iff.mp (Except.ok.inj hd)
      rw [← relationships_of_load hload]
      exact ⟨content, mediaType, _, rfl, rfl, rfl, rfl, rfl⟩
    · obtain ⟨n, hdraw⟩ := drawImage_of_refused haccept url (imageKind url mediaType) content
      rw [hdraw] at h
      cases h
  · rw [drawLoaded_of_missing hload] at h
    cases h

/-! ### Captions -/

/-- The look of a caption within a style: italic, and in the colour of captions. -/
def captionLook (settings : Settings) (style : RunStyle) : Look :=
  { style.givenLook settings.codeFont with
    italic := some true
    color := some settings.captionColor.toUpper }

/-- The style of captions within a style gives the look of a caption. -/
theorem givenLook_caption {settings : Settings} (haccepted : settings.Accepted)
    (style : RunStyle) :
    (style.merge (.ofCaption settings)).givenLook settings.codeFont =
      captionLook settings style := by
  have hhex : isHexColor settings.captionColor = true := haccepted.isHexColor .caption
  have hcolor : RunStyle.innerText style.color (some settings.captionColor) =
      some settings.captionColor := innerText_color haccepted style.color .caption
  have hread := readColor_of_isHexColor hhex
  simp [captionLook, RunStyle.givenLook, RunStyle.merge, RunStyle.ofCaption, hcolor, Option.filter,
    isEmpty_of_isHexColor hhex, hread, Except.toOption]

/-- A run that shows nothing but the caption for an image. -/
structure IsCaption (settings : Settings) (alt : String) (style : RunStyle) (r : Run) : Prop where
  marks : r.marks = readMarks (caption alt)
  look : r.propertyList = (captionLook settings style).properties
  drawings : r.drawings = []

/-- A caption that can be written is one run, which shows the caption. -/
theorem isCaption_of_captionOutcome (haccepted : env.settings.Accepted) {remark : String} {b : Bool}
    (h : (captionOutcome env alt style remark s).result = .ok b) :
    ∃ r, (captionOutcome env alt style remark s).written = [r] ∧
      IsCaption env.settings alt style r := by
  obtain ⟨r, hmade, hwritten⟩ := written_captionOutcome h
  have hok := congrArg Prod.snd hmade
  have hrun := congrArg Prod.fst hmade
  have hmarks := captionRun_marks hok
  have hlook := captionRun_givenLook hok
  have hdrawings := captionRun_drawings env.settings alt style
  rw [givenLook_caption haccepted] at hlook
  rw [hrun] at hmarks hlook hdrawings
  exact ⟨r, hwritten, hmarks, hlook, hdrawings⟩

/-- A run that was to show an image holds its drawing or its caption, as embedding returns. If the
drawing, then one relationship is new, that of the drawing, and it leads to one part, which is new and
holds the image. If the caption, then the relationships, and with them the parts, are as before exactly
if the image is not stranded. -/
theorem image_drawn_or_captioned (haccepted : env.settings.Accepted) {drawn : Bool}
    (h : (embedImage env attached url alt style s).result = .ok drawn) :
    ∃ r, (embedImage env attached url alt style s).written = [r] ∧
      (drawn = false → IsCaption env.settings alt style r ∧
        ((embedImage env attached url alt style s).state.relationships = s.relationships ↔
          ¬Stranded env url s)) ∧
      (drawn = true → ∃ content mediaType d part,
        (loadImage env url s).2 = .ok (.image content mediaType) ∧
        r.items = [.drawing d] ∧ d.relationship ∉ s.relationships.ids ∧
        (embedImage env attached url alt style s).state.relationships =
          s.relationships ++ [⟨d.relationship, .image part⟩] ∧
        part.content = content ∧ part.number ∉ s.relationships.images.map (·.number)) := by
  rcases hdraw : drawLoaded env url s with ⟨t, e | _ | d⟩
  · rw [embedImage_of_fault attached alt style hdraw] at h
    cases h
  · obtain ⟨remark, hembed⟩ := embedImage_of_captioned attached alt style hdraw
    rw [hembed] at h ⊢
    obtain ⟨r, hwritten, hcaption⟩ := isCaption_of_captionOutcome haccepted h
    have hrelationships := relationships_of_captioned hdraw
    refine ⟨r, hwritten, fun _ ↦ ⟨hcaption, hrelationships⟩, ?_⟩
    rintro rfl
    rcases hmade : captionRun env.settings alt style Run.empty with ⟨q, _ | e⟩ <;>
      simp [captionOutcome, hmade] at h
  · obtain ⟨log, hembed⟩ := embedImage_of_shown attached alt style hdraw
    rw [hembed] at h ⊢
    cases h
    obtain ⟨content, mediaType, part, hload, hid, hrelationships, hcontent, hnumber⟩ :=
      relationships_of_shown hdraw
    refine ⟨_, rfl, ?_, fun _ ↦ ⟨content, mediaType, d, part, hload, rfl, ?_, ?_, hcontent, ?_⟩⟩
    · intro hfalse
      cases hfalse
    · rw [hid]
      exact s.relationships.nextId_not_mem
    · rw [← hrelationships]
      cases attached <;> rfl
    · rw [hnumber]
      exact leastFree_not_mem _ _

/-- Surroundings with accepted settings in which images are wider than a drawing may be. -/
def wideImages : Surroundings :=
  { sameImage with settings := { imageWidth := .ofNat 30000000 } }

theorem wideImages_accepted : wideImages.settings.Accepted :=
  .withOverrides Settings.accepted_default
    (show Settings.withOverrides {} [(.text "image_width_in", .int 30000000)] =
      .ok wideImages.settings by decide +kernel)

theorem image_drawn_or_captioned_sameImage :
    (embedImage sameImage true "http://b/c.png" "x" .plain {}).result = .ok true ∧
      ∃ r, (embedImage sameImage true "http://b/c.png" "x" .plain {}).written = [r] ∧
        ∃ d, r.items = [.drawing d] := by
  have hdrawn : (embedImage sameImage true "http://b/c.png" "x" .plain {}).result = .ok true := by
    decide +kernel
  obtain ⟨r, hwritten, -, hshown⟩ := image_drawn_or_captioned Settings.accepted_default hdrawn
  obtain ⟨content, mediaType, d, part, -, hitems, -⟩ := hshown rfl
  exact ⟨hdrawn, r, hwritten, d, hitems⟩

/-- An image that is too wide is captioned, and yet its part stays. -/
theorem wideImages_stranded :
    wideImages.settings.Accepted ∧
      (embedImage wideImages true "http://b/c.png" "x" .plain {}).result = .ok false ∧
      (embedImage wideImages true "http://b/c.png" "x" .plain
        {}).state.relationships.images.map ImagePart.path = ["media/image1.png"] :=
  ⟨wideImages_accepted, by decide +kernel, by decide +kernel⟩

/-! ### Failures -/

/-- Why a source has no place below an asset root: one of them holds a NUL character, or the links on
its way lead in a circle. The asset root comes first. -/
inductive PlaceFault (tree : FileTree) (root : PurePath) (source : String) : Failure → Prop
  | nulRoot (hnul : root.holdsNul = true) : PlaceFault tree root source .nulInPath
  | circleRoot {place : Location} (hfree : root.holdsNul = false)
      (hcircle : tree.resolve root = .error place) :
      PlaceFault tree root source (.linkCircle (FileTree.pathOf place).toString)
  | nulSource {base : Location} (hbase : tree.resolve root = .ok base)
      (hnul : Char.ofNat 0 ∈ source.toList) : PlaceFault tree root source .nulInPath
  | circleSource {base place : Location} (hfree : root.holdsNul = false)
      (hbase : tree.resolve root = .ok base) (hsource : Char.ofNat 0 ∉ source.toList)
      (hcircle : tree.resolve ((FileTree.pathOf base).join (.ofString source)) = .error place) :
      PlaceFault tree root source (.linkCircle (FileTree.pathOf place).toString)

/-- Why a source that is not known yet cannot be loaded at all: the client of all callers is refused,
the client fails in a way that is no fetch result, or a local source has no place below the asset
root. -/
inductive LoadFault (env : Surroundings) (url : String) (s : RenderState) : Failure → Prop
  | refused {refusal : String} (hremote : Url.isRemote url = true)
      (hfetcher : env.fetcher = .shared (some refusal)) : LoadFault env url s (.settings refusal)
  | broken {message : String} (hremote : Url.isRemote url = true)
      (hfetcher : ∀ refusal, env.fetcher ≠ .shared (some refusal))
      (hreply : env.web s.requests url = .broken message) : LoadFault env url s (.client message)
  | unplaced {root : PurePath} {e : Failure} (hlocal : Url.isRemote url = false)
      (hroot : env.assetRoot = some root) (hplace : PlaceFault env.files root url e) :
      LoadFault env url s e

/-- A reply is no fetch result exactly if the client fails in another way. -/
theorem fetched_eq_error_iff {reply : Reply} {e : Failure} :
    reply.fetched url = .error e ↔ ∃ message, reply = .broken message ∧ e = .client message := by
  cases reply with
  | response status body contentType =>
    simp only [Reply.fetched]
    split
    · simp
    · split <;> simp
  | timeout => simp [Reply.fetched]
  | refused message => simp [Reply.fetched]
  | broken message =>
    simp only [Reply.fetched, Except.error.injEq, Reply.broken.injEq, exists_eq_left']
    exact eq_comm

/-- Placing a source fails exactly for one of the reasons of `PlaceFault`. -/
theorem imagePlaces_eq_error_iff {tree : FileTree} {root : PurePath} {source : String}
    {e : Failure} : imagePlaces tree root source = .error e ↔ PlaceFault tree root source e := by
  constructor
  · intro h
    unfold imagePlaces at h
    split at h
    · next hnul => cases h; exact .nulRoot hnul
    · next hfree =>
      split at h
      · next hcircle => cases h; exact .circleRoot (by simpa using hfree) hcircle
      · next hbase =>
        split at h
        · next hnul => cases h; exact .nulSource hbase (by simpa using hnul)
        · next hsource =>
          split at h <;> cases h
          next hcircle =>
            exact .circleSource (by simpa using hfree) hbase (by simpa using hsource) hcircle
  · intro h
    unfold imagePlaces
    cases h with
    | nulRoot hnul => simp [hnul]
    | circleRoot hfree hcircle => simp [hfree, hcircle]
    | nulSource hbase hnul => simp [hbase, hnul]
    | circleSource hfree hbase hsource hcircle => simp [hfree, hbase, hsource, hcircle]

/-- Reading a local image fails exactly if there is an asset root and the source has no place below
it. -/
theorem readLocalImage_eq_error_iff {tree : FileTree} {root : Option PurePath} {source : String}
    {e : Failure} : readLocalImage tree root source = .error e ↔
      ∃ folder, root = some folder ∧ PlaceFault tree folder source e := by
  unfold readLocalImage
  cases root with
  | none => simp
  | some folder =>
    simp only [← imagePlaces_eq_error_iff, Option.some.injEq, exists_eq_left']
    rcases imagePlaces tree folder source with e' | ⟨base, location⟩
    · simp
    · simp only [reduceCtorEq, iff_false]
      split <;> simp

/-- Fetching from the web fails exactly if the client fails in a way that is no fetch result. -/
theorem fetchImage_eq_error_iff {web : Web} {requests : List String} {e : Failure}
    (hremote : Url.isRemote url = true) :
    (fetchImage web requests url).2 = .error e ↔
      ∃ message, web requests url = .broken message ∧ e = .client message := by
  rw [fetchImage, if_pos hremote]
  exact fetched_eq_error_iff

section Fault

variable {e : Failure}

/-- Where the client of all callers is refused, a remote source cannot be loaded for that reason. -/
theorem loadFault_refused_iff (hremote : Url.isRemote url = true) {refusal : String}
    (hshared : env.fetcher = .shared (some refusal)) :
    LoadFault env url s e ↔ e = .settings refusal := by
  constructor
  · rintro (⟨-, hrefused⟩ | ⟨-, hother, -⟩ | ⟨hlocal, -, -⟩)
    · rw [hshared] at hrefused
      cases hrefused
      rfl
    · exact absurd hshared (hother _)
    · exact absurd hremote (by simp [hlocal])
  · rintro rfl
    exact .refused hremote hshared

/-- Where there is a client, a remote source cannot be loaded if the client fails in a way that is no
fetch result. -/
theorem loadFault_broken_iff (hremote : Url.isRemote url = true)
    (hother : ∀ refusal, env.fetcher ≠ .shared (some refusal)) :
    LoadFault env url s e ↔
      ∃ message, env.web s.requests url = .broken message ∧ e = .client message := by
  constructor
  · rintro (⟨-, hshared⟩ | ⟨-, -, hreply⟩ | ⟨hlocal, -, -⟩)
    · exact absurd hshared (hother _)
    · exact ⟨_, hreply, rfl⟩
    · exact absurd hremote (by simp [hlocal])
  · rintro ⟨message, hreply, rfl⟩
    exact .broken hremote hother hreply

/-- A local source cannot be loaded if it has no place below the asset root. -/
theorem loadFault_unplaced_iff (hlocal : ¬Url.isRemote url = true) :
    LoadFault env url s e ↔
      ∃ root, env.assetRoot = some root ∧ PlaceFault env.files root url e := by
  constructor
  · rintro (⟨hremote, -⟩ | ⟨hremote, -, -⟩ | ⟨-, hroot, hplace⟩)
    · exact absurd hremote hlocal
    · exact absurd hremote hlocal
    · exact ⟨_, hroot, hplace⟩
  · rintro ⟨root, hroot, hplace⟩
    exact .unplaced (by simpa using hlocal) hroot hplace

/-- Loading anew fails exactly for one of the reasons of `LoadFault`. -/
theorem loadAnew_eq_error_iff : (loadAnew env url s).2 = .error e ↔ LoadFault env url s e := by
  unfold loadAnew
  split
  · next hremote =>
    split
    · next refusal hshared =>
      rw [loadFault_refused_iff hremote hshared, Except.error.injEq]
      exact eq_comm
    · next hother =>
      rw [loadFault_broken_iff hremote hother]
      exact fetchImage_eq_error_iff hremote
  · next hlocal =>
    rw [loadFault_unplaced_iff hlocal]
    exact readLocalImage_eq_error_iff

end Fault

/-- Loading fails exactly for one of the reasons of `LoadFault`, and only for a source that is not
known. -/
theorem loadImage_eq_error_iff {e : Failure} :
    (loadImage env url s).2 = .error e ↔ s.loaded? url = none ∧ LoadFault env url s e := by
  rw [← loadAnew_eq_error_iff]
  unfold loadImage
  split
  · next fetched hknown => simp [hknown]
  · next hunknown => rcases loadAnew env url s with ⟨t, e' | fetched⟩ <;> simp [hunknown]

/-- A caption fails for the reason that the change of its run stops for. -/
theorem captionOutcome_eq_error_iff {remark : String} {e : Failure} :
    (captionOutcome env alt style remark s).result = .error e ↔
      ((textFailure? (caption alt)).or
        ((style.merge (.ofCaption env.settings)).failure? env.settings.codeFont)) = some e := by
  have hstops := captionRun_stops_style env.settings alt style Run.empty
  rw [← hstops]
  rcases hmade : captionRun env.settings alt style Run.empty with ⟨r, _ | e'⟩ <;>
    simp [captionOutcome, hmade]

/-- What keeps the style of captions from being applied within a style is not the colour of that
style. -/
theorem failure?_caption {settings : Settings} (haccepted : settings.Accepted) (style : RunStyle) :
    (style.merge (.ofCaption settings)).failure? settings.codeFont =
      { style with color := none }.failure? settings.codeFont := by
  have hhex : isHexColor settings.captionColor = true := haccepted.isHexColor .caption
  have hcolor : RunStyle.innerText style.color (some settings.captionColor) =
      some settings.captionColor := innerText_color haccepted style.color .caption
  simp [RunStyle.failure?, RunStyle.fontFailure?, RunStyle.merge, RunStyle.ofCaption, hcolor,
    RunStyle.givenFailure?, Option.filter, isEmpty_of_isHexColor hhex, RunStyle.colorFailure?,
    readColor_of_isHexColor hhex]

/-- In accepted settings, loading an image fails exactly if its source is not known and cannot be
loaded for one of the reasons of `LoadFault`. Embedding it with an alternative text that XML can hold
fails exactly if loading it does, or if it is not drawn and the font, the size or the shading of the
style given cannot be set on its caption. -/
theorem image_failures (haccepted : env.settings.Accepted) (halt : isCompatibleText alt = true)
    (s : RenderState) (attached : Bool) (url : String) (style : RunStyle) (e : Failure) :
    ((loadImage env url s).2 = .error e ↔ s.loaded? url = none ∧ LoadFault env url s e) ∧
    ((embedImage env attached url alt style s).result = .error e ↔
      (s.loaded? url = none ∧ LoadFault env url s e) ∨
      ((drawLoaded env url s).2 = .ok none ∧
        { style with color := none }.failure? env.settings.codeFont = some e)) := by
  refine ⟨loadImage_eq_error_iff, ?_⟩
  rw [← loadImage_eq_error_iff, ← drawLoaded_eq_error_iff]
  rcases hdraw : drawLoaded env url s with ⟨t, e' | _ | d⟩
  · simp [embedImage_of_fault attached alt style hdraw]
  · obtain ⟨remark, hembed⟩ := embedImage_of_captioned attached alt style hdraw
    have htext : textFailure? (caption alt) = none := by
      rw [textFailure?, isCompatibleText_caption, if_pos halt]
    rw [hembed, captionOutcome_eq_error_iff, htext, Option.none_or, failure?_caption haccepted]
    simp
  · obtain ⟨log, hembed⟩ := embedImage_of_shown attached alt style hdraw
    simp [hembed]

/-- A local image below an asset root with a NUL character fails. -/
theorem image_failures_nulRoot :
    nulRoot.settings.Accepted ∧ isCompatibleText "x" = true ∧
      (loadImage nulRoot "p.png" {}).2 = .error .nulInPath ∧
      (embedImage nulRoot true "p.png" "x" .plain {}).result = .error .nulInPath := by
  have hfault : LoadFault nulRoot "p.png" {} .nulInPath :=
    .unplaced (by decide) rfl (.nulRoot (by decide))
  obtain ⟨hload, hembed⟩ := @image_failures nulRoot "x" Settings.accepted_default (by decide) {} true
    "p.png" .plain .nulInPath
  exact ⟨Settings.accepted_default, by decide, hload.mpr ⟨rfl, hfault⟩,
    hembed.mpr (.inl ⟨rfl, hfault⟩)⟩

/-- Surroundings with a client that fails in a way that is no fetch result. -/
def brokenClient : Surroundings := { web := fun _ _ ↦ .broken "two cookies" }

/-- A failure of the client that is no fetch result stops loading and embedding. -/
theorem brokenClient_fails :
    brokenClient.settings.Accepted ∧ isCompatibleText "x" = true ∧
      (loadImage brokenClient "http://b/c.png" {}).2 = .error (.client "two cookies") ∧
      (embedImage brokenClient true "http://b/c.png" "x" .plain {}).result =
        .error (.client "two cookies") :=
  ⟨Settings.accepted_default, by decide, by decide +kernel, by decide +kernel⟩

end Folio
