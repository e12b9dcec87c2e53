import Folio.Proofs.Growth

/-!
# Labels that fail twice

Whether a fragment can be written can be told from what is known about sources afterwards, or at any
later time, since what is known stays known (`Step.DecidedBy`, `Fragment.write_decidedBy`). A link
whose label cannot be written as a hyperlink is written as text instead, in the style around it. Both
ways write the same fragments, and their styles differ in nothing that a failure depends on
(`forall_isWritable_iff`). So a link whose label fails as a hyperlink fails altogether, and one that
is written is a hyperlink (`label_of_writeLink`).
-/

set_option autoImplicit false
set_option relaxedAutoImplicit false

namespace Folio

open Word

/-! ### What decides whether writing succeeds -/

/-- A step keeps what is known about sources, and whether it succeeds can be told from what is known
about them after it, or at any later time. -/
structure Step.DecidedBy {ω : Type} (env : Surroundings) (step : Step ω Unit)
    (P : RenderState → Prop) : Prop where
  learns : step.Obeys fun s _ t ↦ s.Learns env t
  iff : ∀ s t, s.Loadable env → (step s).state.images <+: t.images →
    ((step s).result = .ok () ↔ P t)

/-- Steps for a list are decided by what decides each of them. -/
theorem Step.decidedBy_forEach {ω α : Type} {env : Surroundings} {step : α → Step ω Unit}
    {P : α → RenderState → Prop} {as : List α} (h : ∀ a ∈ as, (step a).DecidedBy env (P a)) :
    (forEach step as).DecidedBy env fun t ↦ ∀ a ∈ as, P a t where
  learns := obeys_forEach RenderState.Learns.sequential fun a ha ↦ (h a ha).learns
  iff := by
    induction as with
    | nil => simp
    | cons a as ih =>
      have hfirst := h a List.mem_cons_self
      have hlearns := obeys_forEach RenderState.Learns.sequential
        fun b hb ↦ (h b (List.mem_cons_of_mem a hb)).learns
      intro s t hs himages
      rw [forEach_cons] at himages ⊢
      rw [List.forall_mem_cons]
      rcases hresult : (step a s).result with e | ⟨⟩
      · rw [bind_of_error hresult] at himages ⊢
        have hfail := hfirst.iff s t hs himages
        simp only [hresult, reduceCtorEq, false_iff] at hfail
        simp [hfail]
      · rw [bind_of_ok hresult] at himages ⊢
        have hok := (hfirst.iff s t hs ((hlearns _).images.trans himages)).mp hresult
        rw [and_iff_right hok]
        exact ih (fun b hb ↦ h b (List.mem_cons_of_mem a hb)) _ t ((hfirst.learns s).loadable hs)
          himages

/-- Whether a fragment can be written, by what is known about sources in a state. -/
def Fragment.IsWritable (env : Surroundings) (t : RenderState) : Fragment → Prop
  | .text content style => textRunFailure? env.settings content style = none
  | .lineBreak => True
  | .image url alt style =>
    (isBlankText url = true ∧ textRunFailure? env.settings (caption alt) style = none) ∨
      (isBlankText url = false ∧ isLoadable env url = true ∧
        ((drawnContent? env t url).isSome = true ∨
          textRunFailure? env.settings (caption alt) style = none))

/-- Alike fragments can be written in the same states. -/
theorem Fragment.Alike.isWritable_iff {env : Surroundings} {t : RenderState} {f g : Fragment}
    (h : f.Alike g) : f.IsWritable env t ↔ g.IsWritable env t := by
  cases h with
  | text content h => simp only [Fragment.IsWritable, h.textRunFailure?_eq]
  | lineBreak => rfl
  | image url alt h => simp only [Fragment.IsWritable, h.textRunFailure?_eq]

/-- Of fragments that are alike one for one, all can be written in the same states. -/
theorem forall_isWritable_iff {env : Surroundings} {t : RenderState} {fs gs : List Fragment}
    (h : List.Forall₂ Fragment.Alike fs gs) :
    (∀ f ∈ fs, f.IsWritable env t) ↔ ∀ g ∈ gs, g.IsWritable env t := by
  induction h with
  | nil => simp
  | cons hfg _ ih => rw [List.forall_mem_cons, List.forall_mem_cons, hfg.isWritable_iff, ih]

/-! ### Fragments -/

section Steady

variable {env : Surroundings} {s t : RenderState}

/-- The state after an image with a source is the state after writing it. -/
theorem Fragment.write_image_state {url alt : String} {style : RunStyle} {attached : Bool}
    (hurl : isBlankText url = false) :
    ((Fragment.image url alt style).write env attached s).state =
      (embedImage env attached url alt style s).state := by
  simp only [Fragment.write, hurl, Bool.false_eq_true, ↓reduceIte]
  rcases hembed : (embedImage env attached url alt style s).result with e | b
  · rw [Step.bind_of_error hembed]
  · rw [Step.bind_of_ok hembed]
    rfl

variable (henv : env.Steady)

include henv

/-- Whether an image can be drawn or captioned is decided by what is known about it. -/
theorem embedImage_eq_ok_iff_writable (hs : s.Loadable env) {url alt : String} {attached : Bool}
    {style : RunStyle} (hstyle : style.Sound)
    (himages : (embedImage env attached url alt style s).state.images <+: t.images) :
    (∃ b, (embedImage env attached url alt style s).result = .ok b) ↔
      isLoadable env url = true ∧ ((drawnContent? env t url).isSome = true ∨
        textRunFailure? env.settings (caption alt) style = none) := by
  have hload := @load_eq_ok_iff env s url henv.answers hs
  rw [embedImage_images] at himages
  rw [embedImage_eq_ok_iff henv.accepted hstyle, ← hload]
  constructor
  · rintro ⟨u, fetched, hloaded, hcase⟩
    refine ⟨⟨fetched, by rw [hloaded]⟩, hcase.imp_left ?_⟩
    rintro ⟨content, mediaType, rfl, hdrawn⟩
    rw [hloaded] at himages
    have hknown := loaded?_mono himages (loaded?_of_load hloaded)
    rw [isSome_drawImage henv.registers] at hdrawn
    simp [drawnContent?_of_image hknown, hdrawn]
  · rintro ⟨⟨fetched, hfetched⟩, hcase⟩
    have hloaded : loadImage env url s = ((loadImage env url s).1, .ok fetched) :=
      Prod.ext rfl hfetched
    have hknown := loaded?_mono himages (loaded?_of_load hloaded)
    refine ⟨_, fetched, hloaded, hcase.imp_left fun hdrawn ↦ ?_⟩
    cases fetched with
    | missing why => simp [drawnContent?_of_missing hknown] at hdrawn
    | image content mediaType =>
      refine ⟨content, mediaType, rfl, ?_⟩
      rw [isSome_drawImage henv.registers]
      by_contra hundrawable
      simp [drawnContent?_of_image hknown, hundrawable] at hdrawn

/-- A fragment is decided by its own parts. -/
theorem Fragment.write_decidedBy {f : Fragment} (hf : f.Sound) (attached : Bool) :
    (f.write env attached).DecidedBy env fun t ↦ f.IsWritable env t where
  learns := f.write_learns henv.answers attached
  iff := by
    intro s t hs himages
    cases hf with
    | text content h => exact writeText_eq_ok_iff h.left
    | lineBreak => simp [Fragment.write, writeBreak, Fragment.IsWritable]
    | image url alt h =>
      rcases hurl : isBlankText url
      · rw [Fragment.write_image_state hurl] at himages
        rw [Fragment.write_image_eq_ok_iff hurl,
          embedImage_eq_ok_iff_writable henv hs h.left himages]
        simp [Fragment.IsWritable, hurl]
      · rw [Fragment.write_blank_eq_ok_iff henv.accepted hurl h.left]
        simp [Fragment.IsWritable, hurl]

/-- The label of a link is decided by its fragments. -/
theorem writeLabel_decidedBy (attached : Bool) (url : String) (children : List Inline)
    {style : RunStyle} (hstyle : style.Sound) :
    (writeLabel env attached url children style).DecidedBy env fun t ↦
      ∀ f ∈ labelFragments env.settings url children style, f.IsWritable env t := by
  rw [writeLabel_eq]
  exact Step.decidedBy_forEach fun f hf ↦ Fragment.write_decidedBy henv
    (labelFragments_sound henv.accepted url children hstyle f hf) attached

/-! ### Links -/

/-- A link whose label fails is written as text, in a state that knows what the label has learnt. -/
theorem writeLink_of_failed {url : String} {children : List Inline} {style : RunStyle} {e : Failure}
    (h : (writeLabel env false url children (style.merge (.ofLink env.settings))
      (labelStart url s)).result = .error e) :
    ∃ u, (writeLabel env false url children (style.merge (.ofLink env.settings))
        (labelStart url s)).state.Learns env u ∧
      writeLink env url children style s = inParagraph (writeLabel env true url children style) u := by
  obtain ⟨log, hlink⟩ := writeHyperlink_of_failed (henv.registers _) h
  obtain ⟨u, hfailed, hu⟩ : ∃ u, writeHyperlink env url (writeLabel env false url children
      (style.merge (.ofLink env.settings))) s = ⟨[], u, .ok false⟩ ∧
        (writeLabel env false url children (style.merge (.ofLink env.settings))
          (labelStart url s)).state.Learns env u := ⟨_, hlink, List.prefix_refl _, id⟩
  refine ⟨u, hu, ?_⟩
  rw [writeLink, Step.bind_of_ok (congrArg Outcome.result hfailed), hfailed]
  rfl

/-- A link whose label can be written is written, and learns what the label has learnt. -/
theorem writeLink_of_built {url : String} {children : List Inline} {style : RunStyle}
    (h : (writeLabel env false url children (style.merge (.ofLink env.settings))
      (labelStart url s)).result = .ok ()) :
    (writeLink env url children style s).result = .ok () ∧
      (writeLink env url children style s).state.images =
        (writeLabel env false url children (style.merge (.ofLink env.settings))
          (labelStart url s)).state.images := by
  have hlink := writeHyperlink_of_built (henv.registers _) h
  rw [writeLink, Step.bind_of_ok (congrArg Outcome.result hlink), hlink]
  exact ⟨rfl, rfl⟩

/-- A link is decided by the fragments of its label. -/
theorem writeLink_decidedBy (url : String) (children : List Inline) {style : RunStyle}
    (hstyle : style.Sound) :
    (writeLink env url children style).DecidedBy env fun t ↦
      ∀ f ∈ labelFragments env.settings url children (style.merge (.ofLink env.settings)),
        f.IsWritable env t where
  learns := (Segment.link url children style).write_learns henv.answers
  iff := by
    intro s t hs himages
    have hstart := (grows_labelStart env url s).loadable hs
    have hlearns := writeLabel_learns henv.answers false url children
      (style.merge (.ofLink env.settings)) (labelStart url s)
    rcases hresult : (writeLabel env false url children (style.merge (.ofLink env.settings))
      (labelStart url s)).result with e | ⟨⟩
    · obtain ⟨u, hu, hlink⟩ := writeLink_of_failed henv hresult
      have hagain := writeLabel_decidedBy henv true url children hstyle
      rw [hlink] at himages ⊢
      rw [forall_isWritable_iff
        (labelFragments_alike henv.accepted url children (hstyle.link_alike henv.accepted))]
      exact hagain.iff u t (hu.loadable (hlearns.loadable hstart)) himages
    · obtain ⟨hok, hknown⟩ := writeLink_of_built henv hresult
      have hlabel := writeLabel_decidedBy henv false url children
        (hstyle.merge (RunStyle.sound_ofLink henv.accepted))
      rw [hknown] at himages
      exact iff_of_true hok ((hlabel.iff _ t hstart himages).mp hresult)

/-- A link that can be written is a hyperlink: its label can be written as one. -/
theorem label_of_writeLink {url : String} {children : List Inline} {style : RunStyle}
    (hstyle : style.Sound) (hs : s.Loadable env)
    (h : (writeLink env url children style s).result = .ok ()) :
    (writeLabel env false url children (style.merge (.ofLink env.settings))
      (labelStart url s)).result = .ok () := by
  have hstart := (grows_labelStart env url s).loadable hs
  have hlabel := writeLabel_decidedBy henv false url children
    (hstyle.merge (RunStyle.sound_ofLink henv.accepted))
  have hwritable := ((writeLink_decidedBy henv url children hstyle).iff s _ hs
    (List.prefix_refl _)).mp h
  rcases hresult : (writeLabel env false url children (style.merge (.ofLink env.settings))
    (labelStart url s)).result with e | ⟨⟩
  · -- The fragments that the second attempt has written could have been written the first time.
    obtain ⟨u, hu, hlink⟩ := writeLink_of_failed henv hresult
    rw [hlink] at hwritable
    have hknown := hu.images.trans (writeLabel_learns henv.answers true url children style u).images
    have hok := (hlabel.iff _ _ hstart hknown).mpr hwritable
    rw [hresult] at hok
    cases hok
  · rfl

end Steady

end Folio
