import Folio.Proofs.Step
import Folio.Proofs.View

/-!
# Writing images

What writing an image does, case by case: the image cannot be loaded at all
(`embedImage_of_unloaded`), loading gives no image (`embedImage_of_missing`), the image cannot be
drawn (`embedImage_of_undrawn`), or it is drawn (`embedImage_of_drawn`). Loading touches only the
images and the requests of the state; an image is registered at most once, and nothing is drawn that
was not registered (`drawImage_spec`). Where it does not matter why there is no drawing, loading and
drawing are one (`drawLoaded`): they fail, or give no drawing and thus a caption, or give a drawing.
-/

set_option autoImplicit false
set_option relaxedAutoImplicit false

namespace Folio

open Word

variable {env : Surroundings} {s t u : RenderState} {url : String}

/-! ### Loading -/

section Load

variable {result : Except Failure Fetched}

/-- Loading anew leaves everything but the requests and the log. -/
theorem state_of_loadAnew (h : loadAnew env url s = (t, result)) :
    ∃ requests log, t = { s with requests := requests, log := log } := by
  unfold loadAnew at h
  split at h
  · split at h
    · cases h
      exact ⟨s.requests, s.log, rfl⟩
    · cases h
      exact ⟨_, _, rfl⟩
  · cases h
    exact ⟨s.requests, s.log, rfl⟩

/-- Loading leaves the images known before and perhaps one more, under its source, and everything
else but the requests and the log. -/
theorem state_of_load (h : loadImage env url s = (t, result)) :
    ∃ images requests log, t =
      { s with images := s.images ++ images, requests := requests, log := log } := by
  unfold loadImage at h
  split at h
  · cases h
    exact ⟨[], s.requests, s.log, by rw [List.append_nil]⟩
  · rcases hload : loadAnew env url s with ⟨u, e | fetched⟩
    all_goals
      obtain ⟨requests, log, rfl⟩ := state_of_loadAnew hload
      rw [hload] at h
      cases h
    · exact ⟨[], requests, log, by rw [List.append_nil]⟩
    · exact ⟨[(url, fetched)], requests, log, rfl⟩

theorem relationships_of_load (h : loadImage env url s = (t, result)) :
    t.relationships = s.relationships := by
  obtain ⟨images, requests, log, rfl⟩ := state_of_load h
  rfl

theorem linked_of_load (h : loadImage env url s = (t, result)) : t.linked = s.linked := by
  obtain ⟨images, requests, log, rfl⟩ := state_of_load h
  rfl

theorem images_of_load (h : loadImage env url s = (t, result)) : s.images <+: t.images := by
  obtain ⟨images, requests, log, rfl⟩ := state_of_load h
  exact List.prefix_append _ _

end Load

/-- Once a source is known, more images make no difference to what is known about it. -/
theorem loaded?_mono {fetched : Fetched} (hbefore : s.images <+: t.images)
    (h : s.loaded? url = some fetched) : t.loaded? url = some fetched := by
  obtain ⟨images, himages⟩ := hbefore
  simp only [RenderState.loaded?, Option.map_eq_some_iff] at h ⊢
  obtain ⟨entry, hfind, hentry⟩ := h
  exact ⟨entry, by rw [← himages, List.find?_append, hfind, Option.some_or], hentry⟩

/-- A source that has been loaded is known from then on. -/
theorem loaded?_of_load {fetched : Fetched} (h : loadImage env url s = (t, .ok fetched)) :
    t.loaded? url = some fetched := by
  unfold loadImage at h
  split at h
  · next hknown =>
    cases h
    exact hknown
  · next hunknown =>
    rcases hload : loadAnew env url s with ⟨u, e | new⟩
    · rw [hload] at h
      cases h
    · obtain ⟨requests, log, rfl⟩ := state_of_loadAnew hload
      rw [hload] at h
      cases h
      have hnone : s.images.find? (fun entry ↦ entry.1 = url) = none := by
        simpa [RenderState.loaded?] using hunknown
      simp [RenderState.loaded?, List.find?_append, hnone]

/-! ### Registering and drawing -/

/-- Whether an image of a kind at a source can be drawn once it is registered. -/
def isDrawable (env : Surroundings) (url : String) (kind : ImageKind) : Bool :=
  env.faults.register.isNone &&
    (drawing? env.settings 0 0 (imageFileName url kind)).isSome

/-- Whether a drawing can be made does not depend on its numbers, and it carries them. -/
theorem drawing?_eq (settings : Settings) (id number : Nat) (name : String) :
    drawing? settings id number name =
      (drawing? settings 0 0 name).map fun d ↦ { d with relationship := id, number := number } := by
  unfold drawing?
  rcases emuOfInches? settings.imageWidth with _ | width
  · rfl
  · rcases emuOfInches? settings.imageHeight with _ | height
    · rfl
    · simp only [bind, Option.bind]
      split <;> rfl

/-- An image that the registry accepts becomes a part of the package. -/
theorem registerImage_of_accepted (hregister : env.faults.register = none)
    (hrelate : env.faults.relate s.registrations = none) (kind : ImageKind) (content : Bytes) :
    registerImage env kind content s =
      ({ s with
          relationships := (s.relationships.register content kind.mediaType kind.fileSuffix).1
          registrations := s.registrations + 1 },
        some s.relationships.nextId) := by
  simp only [registerImage, askRegistry, hregister, hrelate, Option.map_none]
  rfl

/-- An image that the registry refuses leaves the package as it was. -/
theorem registerImage_of_refused
    (h : ¬(env.faults.register = none ∧ env.faults.relate s.registrations = none))
    (kind : ImageKind) (content : Bytes) :
    ∃ n, registerImage env kind content s = ({ s with registrations := n }, none) := by
  unfold registerImage askRegistry
  rcases hregister : env.faults.register with _ | message
  · rcases hrelate : env.faults.relate s.registrations with _ | message
    · exact absurd ⟨hregister, hrelate⟩ h
    · exact ⟨s.registrations + 1, rfl⟩
  · exact ⟨s.registrations, rfl⟩

/-- An image that the registry accepts is registered, and drawn if its size and its file name fit. -/
theorem drawImage_of_accepted (hregister : env.faults.register = none)
    (hrelate : env.faults.relate s.registrations = none) (url : String) (kind : ImageKind)
    (content : Bytes) :
    drawImage env url kind content s =
      ({ s with
          relationships := (s.relationships.register content kind.mediaType kind.fileSuffix).1
          registrations := s.registrations + 1 },
        drawing? env.settings s.relationships.nextId s.nextDrawing (imageFileName url kind)) := by
  rw [drawImage, registerImage_of_accepted hregister hrelate]
  rfl

/-- An image that the registry refuses is neither registered nor drawn. -/
theorem drawImage_of_refused
    (h : ¬(env.faults.register = none ∧ env.faults.relate s.registrations = none)) (url : String)
    (kind : ImageKind) (content : Bytes) :
    ∃ n, drawImage env url kind content s = ({ s with registrations := n }, none) := by
  obtain ⟨n, hregister⟩ := registerImage_of_refused h kind content
  exact ⟨n, by rw [drawImage, hregister]⟩

/-- What drawing an image leaves. Either nothing is registered and nothing is drawn, or the image is
registered, and it is drawn exactly if it can be. -/
theorem drawImage_spec (env : Surroundings) (url : String) (kind : ImageKind) (content : Bytes)
    (s : RenderState) :
    (∃ n, drawImage env url kind content s = ({ s with registrations := n }, none) ∧
      (env.faults.register.isSome ∨ (env.faults.relate s.registrations).isSome)) ∨
    (∃ n d, drawImage env url kind content s =
        ({ s with
            relationships :=
              (s.relationships.register content kind.mediaType kind.fileSuffix).1,
            registrations := n }, d) ∧
      d.isSome = isDrawable env url kind ∧
      ∀ picture, d = some picture → picture.relationship = s.relationships.nextId ∧
        picture.number = s.nextDrawing) := by
  by_cases haccept : env.faults.register = none ∧ env.faults.relate s.registrations = none
  · obtain ⟨hregister, hrelate⟩ := haccept
    refine .inr ⟨_, _, drawImage_of_accepted hregister hrelate url kind content, ?_, ?_⟩
    · rw [drawing?_eq, Option.isSome_map]
      simp [isDrawable, hregister]
    · intro picture hpicture
      rw [drawing?_eq, Option.map_eq_some_iff] at hpicture
      obtain ⟨d, -, rfl⟩ := hpicture
      exact ⟨rfl, rfl⟩
  · obtain ⟨n, hdraw⟩ := drawImage_of_refused haccept url kind content
    refine .inl ⟨n, hdraw, ?_⟩
    rw [Option.isSome_iff_ne_none, Option.isSome_iff_ne_none]
    exact not_and_or.mp haccept

/-- Drawing an image adds nothing to the images that are known. -/
theorem drawImage_images (env : Surroundings) (url : String) (kind : ImageKind) (content : Bytes)
    (s : RenderState) : (drawImage env url kind content s).1.images = s.images := by
  rcases drawImage_spec env url kind content s with ⟨n, hdraw, -⟩ | ⟨n, d, hdraw, -, -⟩ <;>
    rw [hdraw]

/-- Unless the registry refuses it, an image is drawn exactly if it can be. -/
theorem isSome_drawImage (h : ∀ n, env.faults.relate n = none) (url : String) (kind : ImageKind)
    (content : Bytes) (s : RenderState) :
    (drawImage env url kind content s).2.isSome = isDrawable env url kind := by
  rcases drawImage_spec env url kind content s with ⟨n, hdraw, hfault⟩ | ⟨n, d, hdraw, hd, -⟩
  · have hregister : env.faults.register.isSome = true := by simpa [h] using hfault
    obtain ⟨message, hmessage⟩ := Option.isSome_iff_exists.mp hregister
    simp [hdraw, isDrawable, hmessage]
  · rw [hdraw, hd]

/-! ### What a source is drawn with -/

/-- The content that images from a source are drawn with, if they are drawn: what loading it
gives. -/
def drawnContent? (env : Surroundings) (s : RenderState) (url : String) : Option Bytes :=
  match (loadImage env url s).2 with
  | .ok (.image content mediaType) =>
    if isDrawable env url (imageKind url mediaType) then some content else none
  | _ => none

theorem drawnContent?_of_image {env : Surroundings} {s : RenderState} {url : String}
    {content : Bytes} {mediaType : Option String}
    (h : s.loaded? url = some (.image content mediaType)) :
    drawnContent? env s url =
      if isDrawable env url (imageKind url mediaType) then some content else none := by
  simp only [drawnContent?, loadImage, h]

theorem drawnContent?_of_missing {env : Surroundings} {s : RenderState} {url : String}
    {why : FetchFault} (h : s.loaded? url = some (.missing why)) :
    drawnContent? env s url = none := by
  simp only [drawnContent?, loadImage, h]

/-! ### Writing -/

/-- The outcome of writing a caption for an image: a run with the caption, however far it came. -/
def captionOutcome (env : Surroundings) (alt : String) (style : RunStyle) (remark : String)
    (s : RenderState) : Outcome Run Bool :=
  let (run, result) := captionRun env.settings alt style Run.empty
  ⟨[run], s.note .warning remark,
    match result with
    | none => .ok false
    | some e => .error e⟩

section Embed

variable (attached : Bool) (alt : String) (style : RunStyle)

/-- An image that cannot be loaded at all leaves an empty run. -/
theorem embedImage_of_unloaded {e : Failure} (h : loadImage env url s = (t, .error e)) :
    embedImage env attached url alt style s = ⟨[Run.empty], t, .error e⟩ := by
  simp [embedImage, Step.bind, Step.leaving, Step.update, h]

/-- An image that is missing is written as its caption. -/
theorem embedImage_of_missing {why : FetchFault}
    (h : loadImage env url s = (t, .ok (.missing why))) :
    embedImage env attached url alt style s = captionOutcome env alt style
      ("Image " ++ url ++ " not embedded: " ++ why.message) t := by
  rcases hcaption : captionRun env.settings alt style Run.empty with ⟨run, _ | e⟩ <;>
    simp [embedImage, captionOutcome, Step.bind, Step.leaving, Step.update, Step.note,
      Step.modify, Step.make, h, hcaption]

/-- An image that cannot be drawn is written as its caption. -/
theorem embedImage_of_undrawn {content : Bytes} {mediaType : Option String}
    (h : loadImage env url s = (t, .ok (.image content mediaType)))
    (hdraw : drawImage env url (imageKind url mediaType) content t = (u, none)) :
    embedImage env attached url alt style s =
      captionOutcome env alt style ("Could not embed image " ++ url) u := by
  rcases hcaption : captionRun env.settings alt style Run.empty with ⟨run, _ | e⟩ <;>
    simp [embedImage, captionOutcome, Step.bind, Step.leaving, Step.update, Step.note,
      Step.modify, Step.make, h, hdraw, hcaption]

/-- An image that can be drawn is written as its drawing, which is a part of the document at once if
the run is. -/
theorem embedImage_of_drawn {content : Bytes} {mediaType : Option String} {d : Drawing}
    (h : loadImage env url s = (t, .ok (.image content mediaType)))
    (hdraw : drawImage env url (imageKind url mediaType) content t = (u, some d)) :
    ∃ log, embedImage env attached url alt style s =
      ⟨[Run.empty.append (.drawing d)],
        { if attached then u.attachDrawing d.number else u with log := log }, .ok true⟩ := by
  cases attached <;>
    exact ⟨_, by simp [embedImage, Step.bind, Step.leaving, Step.update, Step.note,
      Step.modify, Step.write, RenderState.note, h, hdraw]; rfl⟩

/-! ### Loading and drawing -/

/-- Loads an image and draws what that gives: the state after that, and the drawing if there is
one. -/
def drawLoaded (env : Surroundings) (url : String) (s : RenderState) :
    RenderState × Except Failure (Option Drawing) :=
  match loadImage env url s with
  | (t, .error e) => (t, .error e)
  | (t, .ok (.missing _)) => (t, .ok none)
  | (t, .ok (.image content mediaType)) =>
    let (u, drawing) := drawImage env url (imageKind url mediaType) content t
    (u, .ok drawing)

theorem drawLoaded_of_unloaded {e : Failure} (h : loadImage env url s = (t, .error e)) :
    drawLoaded env url s = (t, .error e) := by
  rw [drawLoaded, h]

theorem drawLoaded_of_missing {why : FetchFault}
    (h : loadImage env url s = (t, .ok (.missing why))) :
    drawLoaded env url s = (t, .ok none) := by
  rw [drawLoaded, h]

theorem drawLoaded_of_image {content : Bytes} {mediaType : Option String}
    (h : loadImage env url s = (t, .ok (.image content mediaType))) :
    drawLoaded env url s =
      ((drawImage env url (imageKind url mediaType) content t).1,
        .ok (drawImage env url (imageKind url mediaType) content t).2) := by
  rw [drawLoaded, h]

/-- Drawing does not fail, so what fails is loading. -/
theorem load_of_fault {e : Failure} (h : drawLoaded env url s = (t, .error e)) :
    loadImage env url s = (t, .error e) := by
  rcases hload : loadImage env url s with ⟨u, e' | ⟨content, mediaType⟩ | why⟩
  · rw [drawLoaded_of_unloaded hload] at h
    cases h
    rfl
  · rw [drawLoaded_of_image hload] at h
    cases h
  · rw [drawLoaded_of_missing hload] at h
    cases h

theorem drawLoaded_eq_error_iff {e : Failure} :
    (drawLoaded env url s).2 = .error e ↔ (loadImage env url s).2 = .error e :=
  ⟨fun h ↦ congrArg Prod.snd (load_of_fault (Prod.ext rfl h)),
    fun h ↦ congrArg Prod.snd (drawLoaded_of_unloaded (Prod.ext rfl h))⟩

/-- Drawing what is loaded changes the relationships and the count of registrations only. -/
theorem state_of_drawLoaded (h : (drawLoaded env url s).1 = t) : ∃ relationships registrations,
    t = { (loadImage env url s).1 with
      relationships := relationships, registrations := registrations } := by
  rcases hload : loadImage env url s with ⟨u, e | ⟨content, mediaType⟩ | why⟩
  · rw [drawLoaded_of_unloaded hload] at h
    exact ⟨_, _, h.symm⟩
  · rw [drawLoaded_of_image hload] at h
    rcases drawImage_spec env url (imageKind url mediaType) content u with
      ⟨n, hspec, -⟩ | ⟨n, d, hspec, -, -⟩
    all_goals
      rw [hspec] at h
      exact ⟨_, _, h.symm⟩
  · rw [drawLoaded_of_missing hload] at h
    exact ⟨_, _, h.symm⟩

/-- An image that cannot be loaded at all leaves an empty run. -/
theorem embedImage_of_fault {e : Failure} (h : drawLoaded env url s = (t, .error e)) :
    embedImage env attached url alt style s = ⟨[Run.empty], t, .error e⟩ :=
  embedImage_of_unloaded attached alt style (load_of_fault h)

/-- What is not drawn is captioned. -/
theorem embedImage_of_captioned (h : drawLoaded env url s = (t, .ok none)) :
    ∃ remark, embedImage env attached url alt style s = captionOutcome env alt style remark t := by
  rcases hload : loadImage env url s with ⟨u, e | ⟨content, mediaType⟩ | why⟩
  · rw [drawLoaded_of_unloaded hload] at h
    cases h
  · rw [drawLoaded_of_image hload] at h
    rcases hdraw : drawImage env url (imageKind url mediaType) content u with ⟨v, _ | d⟩
    · rw [hdraw] at h
      cases h
      exact ⟨_, embedImage_of_undrawn attached alt style hload hdraw⟩
    · rw [hdraw] at h
      cases h
  · rw [drawLoaded_of_missing hload] at h
    cases h
    exact ⟨_, embedImage_of_missing attached alt style hload⟩

/-- What is drawn is written as its drawing. -/
theorem embedImage_of_shown {d : Drawing} (h : drawLoaded env url s = (t, .ok (some d))) :
    ∃ log, embedImage env attached url alt style s =
      ⟨[Run.empty.append (.drawing d)],
        { if attached then t.attachDrawing d.number else t with log := log }, .ok true⟩ := by
  rcases hload : loadImage env url s with ⟨u, e | ⟨content, mediaType⟩ | why⟩
  · rw [drawLoaded_of_unloaded hload] at h
    cases h
  · rw [drawLoaded_of_image hload] at h
    rcases hdraw : drawImage env url (imageKind url mediaType) content u with ⟨v, _ | picture⟩
    · rw [hdraw] at h
      cases h
    · rw [hdraw] at h
      cases h
      exact embedImage_of_drawn attached alt style hload hdraw
  · rw [drawLoaded_of_missing hload] at h
    cases h

/-- Writing an image does to the images and the requests what loading it does. -/
theorem state_of_embed : ∃ relationships registrations lastDrawing log,
    (embedImage env attached url alt style s).state =
      { (loadImage env url s).1 with
        relationships := relationships
        registrations := registrations
        lastDrawing := lastDrawing
        log := log } := by
  rcases hdraw : drawLoaded env url s with ⟨t, e | _ | d⟩
  all_goals
    obtain ⟨relationships, registrations, rfl⟩ := state_of_drawLoaded (congrArg Prod.fst hdraw)
  · rw [embedImage_of_fault attached alt style hdraw]
    exact ⟨_, _, _, _, rfl⟩
  · obtain ⟨remark, hembed⟩ := embedImage_of_captioned attached alt style hdraw
    rw [hembed]
    exact ⟨_, _, _, _, rfl⟩
  · obtain ⟨log, hembed⟩ := embedImage_of_shown attached alt style hdraw
    rw [hembed]
    cases attached <;> exact ⟨_, _, _, log, rfl⟩

/-- What writing an image adds to the images that are known is what loading it adds. -/
theorem embedImage_images :
    (embedImage env attached url alt style s).state.images = (loadImage env url s).1.images := by
  obtain ⟨relationships, registrations, lastDrawing, log, hstate⟩ :=
    @state_of_embed env s url attached alt style
  rw [hstate]

end Embed

/-! ### The depth of lists -/

theorem loadImage_atDepth (env : Surroundings) (url : String) (s : RenderState) (n : Int) :
    loadImage env url (s.atDepth n) =
      ((loadImage env url s).1.atDepth n, (loadImage env url s).2) := by
  have hanew : loadAnew env url (s.atDepth n) =
      ((loadAnew env url s).1.atDepth n, (loadAnew env url s).2) := by
    unfold loadAnew
    split
    · split <;> rfl
    · rfl
  have hknown : (s.atDepth n).loaded? url = s.loaded? url := rfl
  unfold loadImage
  rw [hknown, hanew]
  rcases s.loaded? url with _ | fetched
  · rcases loadAnew env url s with ⟨t, e | fetched⟩ <;> rfl
  · rfl

theorem drawImage_atDepth (env : Surroundings) (url : String) (kind : ImageKind)
    (content : Bytes) (s : RenderState) (n : Int) :
    drawImage env url kind content (s.atDepth n) =
      ((drawImage env url kind content s).1.atDepth n, (drawImage env url kind content s).2) := by
  unfold drawImage registerImage askRegistry
  rcases env.faults.register with _ | message
  · have hregistrations : (s.atDepth n).registrations = s.registrations := rfl
    rw [hregistrations]
    rcases env.faults.relate s.registrations with _ | message <;> rfl
  · rfl

/-- Writing an image does not look at the depth of lists. -/
theorem ignoresDepth_embedImage (env : Surroundings) (attached : Bool) (url alt : String)
    (style : RunStyle) : (embedImage env attached url alt style).IgnoresDepth := by
  have hmodify (f : RenderState → RenderState) (hf : ∀ s n, f (s.atDepth n) = (f s).atDepth n) :
      (Step.modify f : Step Run Unit).IgnoresDepth := by
    intro s n
    simp only [Step.modify, hf]
  have hnote (level : LogLevel) (message : String) :
      (Step.note level message : Step Run Unit).IgnoresDepth := hmodify _ fun _ _ ↦ rfl
  have hdone (b : Bool) : (Step.done b : Step Run Bool).IgnoresDepth := Step.ignoresDepth_done b
  have hcaption := Step.ignoresDepth_make Run.empty (captionRun env.settings alt style)
  simp only [embedImage, Step.monad_bind_eq, Step.pure_eq_done]
  refine Step.IgnoresDepth.bind
    ((Step.ignoresDepth_update fun s n ↦ loadImage_atDepth env url s n).leaving _) ?_
  intro fetched
  cases fetched with
  | missing why => exact (hnote _ _).bind fun _ ↦ hcaption.bind fun _ ↦ hdone false
  | image content mediaType =>
    refine Step.IgnoresDepth.bind (Step.ignoresDepth_update fun s n ↦ ?_) ?_
    · rw [drawImage_atDepth]
    · intro drawing
      cases drawing with
      | none => exact (hnote _ _).bind fun _ ↦ hcaption.bind fun _ ↦ hdone false
      | some d =>
        have hwrite : (Step.write (Run.empty.append (.drawing d))).IgnoresDepth := fun _ _ ↦ rfl
        have hattach := hmodify (.attachDrawing d.number) fun _ _ ↦ rfl
        refine hwrite.bind fun _ ↦ ?_
        cases attached
        · exact (hnote _ _).bind fun _ ↦ hdone true
        · simp only [↓reduceIte]
          exact hattach.bind fun _ ↦ (hnote _ _).bind fun _ ↦ hdone true

end Folio
