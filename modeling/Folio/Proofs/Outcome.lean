import Folio.Proofs.Hyperlink

/-!
# When a fragment can be written

A fragment in a sound style can be written unless XML cannot hold its text or its font, or it is an
image that cannot be loaded, or one that has to be captioned and whose caption cannot be written
(`writeText_eq_ok_iff`, `embedImage_eq_ok_iff`). If the network always answers, then whether a
source can be loaded depends on the surroundings alone (`load_eq_ok_iff`), as long as only such
sources are known already (`RenderState.Loadable`).
-/

set_option autoImplicit false
set_option relaxedAutoImplicit false

namespace Folio

open Word

/-! ### Loading -/

/-- A network that replies to every request, or fails to in a way that counts as a missing image. -/
def Web.Answers (web : Web) : Prop := ∀ requests url message, web requests url ≠ .broken message

/-- Whether a source can be loaded, with an image or without. -/
def isLoadable (env : Surroundings) (url : String) : Bool :=
  if Url.isRemote url then
    match env.fetcher with
    | .shared (some _) => false
    | _ => true
  else
    match env.assetRoot with
    | none => true
    | some root => (imagePlaces env.files root url).isOk

/-- Every source that is known can be loaded. -/
def RenderState.Loadable (env : Surroundings) (s : RenderState) : Prop :=
  ∀ entry ∈ s.images, isLoadable env entry.1 = true

section Load

variable {env : Surroundings} {s t : RenderState} {url : String}

/-- A network that answers gives a result for every request. -/
theorem Web.Answers.fetched {web : Web} (h : web.Answers) (requests : List String) (url : String) :
    ∃ fetched, (web requests url).fetched url = .ok fetched := by
  rcases hreply : web requests url with ⟨status, body, contentType⟩ | _ | message | message
  · simp only [Reply.fetched]
    split
    · exact ⟨_, rfl⟩
    · split <;> exact ⟨_, rfl⟩
  · exact ⟨_, rfl⟩
  · exact ⟨_, rfl⟩
  · exact absurd hreply (h requests url message)

/-- Whether a source can be loaded anew depends on the surroundings alone. -/
theorem loadAnew_eq_ok_iff (h : env.web.Answers) :
    (∃ fetched, (loadAnew env url s).2 = .ok fetched) ↔ isLoadable env url = true := by
  unfold loadAnew isLoadable
  by_cases hremote : Url.isRemote url = true
  · have hfetch (requests : List String) :
        ∃ fetched, (fetchImage env.web requests url).2 = .ok fetched := by
      simp only [fetchImage, hremote, ↓reduceIte]
      exact h.fetched requests url
    simp only [hremote, ↓reduceIte]
    rcases env.fetcher with _ | _ | refusal
    · simpa using hfetch _
    · simpa using hfetch _
    · simp
  · simp only [hremote, Bool.false_eq_true, ↓reduceIte]
    unfold readLocalImage
    rcases env.assetRoot with _ | root
    · simp
    · rcases hplaces : imagePlaces env.files root url with e | ⟨base, location⟩
      · simp [hplaces, Except.isOk, Except.toBool]
      · simp only [hplaces, Except.isOk, Except.toBool, iff_true]
        split <;> exact ⟨_, rfl⟩

theorem RenderState.Loadable.of_loaded? (hs : s.Loadable env) {fetched : Fetched}
    (h : s.loaded? url = some fetched) : isLoadable env url = true := by
  obtain ⟨entry, hfind, -⟩ := Option.map_eq_some_iff.mp h
  have hurl : entry.1 = url := by simpa using List.find?_some hfind
  rw [← hurl]
  exact hs entry (List.mem_of_find?_eq_some hfind)

/-- Whether a source can be loaded depends on the surroundings alone. -/
theorem load_eq_ok_iff (h : env.web.Answers) (hs : s.Loadable env) :
    (∃ fetched, (loadImage env url s).2 = .ok fetched) ↔ isLoadable env url = true := by
  rw [← loadAnew_eq_ok_iff (s := s) h]
  unfold loadImage
  split
  · next fetched hknown =>
    have hloadable := (loadAnew_eq_ok_iff (s := s) h).mpr (hs.of_loaded? hknown)
    exact ⟨fun _ ↦ hloadable, fun _ ↦ ⟨fetched, rfl⟩⟩
  · rcases loadAnew env url s with ⟨t, e | fetched⟩ <;> simp

/-- Loading keeps the sources that are known loadable. -/
theorem RenderState.Loadable.load (hs : s.Loadable env) (h : env.web.Answers) :
    (loadImage env url s).1.Loadable env := by
  have hloadable : (∃ fetched, (loadImage env url s).2 = .ok fetched) →
      isLoadable env url = true := (load_eq_ok_iff h hs).mp
  unfold loadImage at hloadable ⊢
  split
  · exact hs
  · next hunknown =>
    simp only [hunknown] at hloadable
    rcases hanew : loadAnew env url s with ⟨t, e | fetched⟩
    all_goals
      obtain ⟨requests, log, rfl⟩ := state_of_loadAnew hanew
    · exact hs
    · intro entry hentry
      rcases List.mem_append.mp hentry with hold | hnew
      · exact hs entry hold
      · rw [List.mem_singleton.mp hnew]
        exact hloadable ⟨fetched, by rw [hanew]⟩

end Load

/-! ### Fragments -/

/-- The reason why a text in a sound style cannot be written, if it cannot. -/
def textRunFailure? (settings : Settings) (text : String) (style : RunStyle) : Option Failure :=
  (textFailure? text).or (style.fontFailure? settings.codeFont)

section Write

variable {env : Surroundings} {s : RenderState} {attached : Bool}

/-- A piece that a change makes is made without failure exactly if the change has no reason to
stop. -/
theorem make_eq_ok_iff {ω : Type} {start : ω} {change : Change ω} {why : Option Failure}
    (h : change.Stops why) : (Step.make start change s).result = .ok () ↔ why = none := by
  rw [Step.make_result_iff, h start]

/-- A text in a sound style can be written unless XML cannot hold it or its font. -/
theorem writeText_eq_ok_iff {content : String} {style : RunStyle} (hstyle : style.Sound) :
    (writeText env content style s).result = .ok () ↔
      textRunFailure? env.settings content style = none :=
  make_eq_ok_iff (textRun_stops env.settings content hstyle)

theorem captionOutcome_eq_ok_iff (haccepted : env.settings.Accepted) {alt remark : String}
    {style : RunStyle} (hstyle : style.Sound) :
    (∃ b, (captionOutcome env alt style remark s).result = .ok b) ↔
      textRunFailure? env.settings (caption alt) style = none := by
  have hstops := captionRun_stops haccepted alt hstyle Run.empty
  rcases hcaption : captionRun env.settings alt style Run.empty with ⟨run, _ | e⟩ <;>
    simp [captionOutcome, textRunFailure?, hcaption, ← hstops]

/-- An image can be written exactly if it can be loaded, and drawn or captioned. -/
theorem embedImage_eq_ok_iff (haccepted : env.settings.Accepted) {url alt : String}
    {style : RunStyle} (hstyle : style.Sound) :
    (∃ b, (embedImage env attached url alt style s).result = .ok b) ↔
      ∃ t fetched, loadImage env url s = (t, .ok fetched) ∧
        ((∃ content mediaType, fetched = .image content mediaType ∧
          (drawImage env url (imageKind url mediaType) content t).2.isSome = true) ∨
        textRunFailure? env.settings (caption alt) style = none) := by
  rcases hload : loadImage env url s with ⟨t, e | ⟨content, mediaType⟩ | why⟩
  · rw [embedImage_of_unloaded attached alt style hload]
    simp
  · rcases hdraw : drawImage env url (imageKind url mediaType) content t with ⟨u, _ | d⟩
    · rw [embedImage_of_undrawn attached alt style hload hdraw,
        captionOutcome_eq_ok_iff haccepted hstyle]
      simp [hdraw]
    · obtain ⟨log, hwritten⟩ := embedImage_of_drawn attached alt style hload hdraw
      rw [hwritten]
      simp [hdraw]
  · rw [embedImage_of_missing attached alt style hload,
      captionOutcome_eq_ok_iff haccepted hstyle]
    simp

/-- An image with a source is a fragment that can be written exactly if the image can. -/
theorem Fragment.write_image_eq_ok_iff {url alt : String} {style : RunStyle}
    (hurl : isBlankText url = false) :
    ((Fragment.image url alt style).write env attached s).result = .ok () ↔
      ∃ b, (embedImage env attached url alt style s).result = .ok b := by
  simp only [Fragment.write, hurl, Bool.false_eq_true, ↓reduceIte]
  rcases hembed : (embedImage env attached url alt style s).result with e | b
  · rw [Step.bind_of_error hembed]
    simp
  · rw [Step.bind_of_ok hembed]
    simp

/-- An image without a source is a fragment that can be written exactly if its caption can. -/
theorem Fragment.write_blank_eq_ok_iff (haccepted : env.settings.Accepted) {url alt : String}
    {style : RunStyle} (hurl : isBlankText url = true) (hstyle : style.Sound) :
    ((Fragment.image url alt style).write env attached s).result = .ok () ↔
      textRunFailure? env.settings (caption alt) style = none := by
  simp only [Fragment.write, hurl, ↓reduceIte]
  exact make_eq_ok_iff (captionRun_stops haccepted alt hstyle)

end Write

end Folio
