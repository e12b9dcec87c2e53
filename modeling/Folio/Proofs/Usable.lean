import Folio.Proofs.Embedding
import Folio.Proofs.Extent

/-!
# What accepted settings are good for

Accepted settings have passed a check, but the check lets through what is no number, lengths of any
size, and any text as the font of code. `accepted_settings_usable` says what a rendering can rely on
all the same, and what it depends on where it cannot: which numbers are above zero, which styles can
be applied (`BuiltStyle` has all in which a text is written, see `Passage.segments_isBuilt`), and which
images are drawn (`embedImage_eq_true_iff`).
-/

set_option autoImplicit false
set_option relaxedAutoImplicit false

namespace Folio

open Word Binary64

/-! ### Numbers -/

/-- No number of accepted settings is zero or below. -/
theorem Settings.Accepted.isNonPositive {settings : Settings} (h : settings.Accepted)
    (f : NumberField) : (f.get settings).isNonPositive = false := by
  have hpasses := (checkSettings_eq_ok_iff.mp h.check).2 (.number f)
  simpa [Field.held, Assignment.passes] using hpasses

/-- A number of accepted settings is above zero unless it is none. -/
theorem Settings.Accepted.isPositive_iff {settings : Settings} (h : settings.Accepted)
    (f : NumberField) : (f.get settings).IsPositive ↔ f.get settings ≠ .nan :=
  Binary64.isPositive_iff (h.isNonPositive f)

/-! ### Styles -/

/-- The styles that a document is written in: that of plain text, of a heading, of a header row or of
a line of code, and within such a style emphasis, a link, a code span or a caption. -/
inductive BuiltStyle (settings : Settings) : RunStyle → Prop
  | plain : BuiltStyle settings .plain
  | heading (level : Int) : BuiltStyle settings (.ofHeading level)
  | header : BuiltStyle settings .ofHeader
  | codeLine : BuiltStyle settings .ofCodeLine
  | emphasis {style : RunStyle} (h : BuiltStyle settings style) (delimiters : Int) :
      BuiltStyle settings (style.merge (.ofEmphasis delimiters))
  | link {style : RunStyle} (h : BuiltStyle settings style) :
      BuiltStyle settings (style.merge (.ofLink settings))
  | code {style : RunStyle} (h : BuiltStyle settings style) :
      BuiltStyle settings (style.merge (.ofCode settings))
  | caption {style : RunStyle} (h : BuiltStyle settings style) :
      BuiltStyle settings (style.merge (.ofCaption settings))

section Built

variable {settings : Settings}

/-- In accepted settings every style that a document is written in is sound. -/
theorem BuiltStyle.sound (haccepted : settings.Accepted) {style : RunStyle}
    (h : BuiltStyle settings style) : style.Sound := by
  induction h with
  | plain => exact RunStyle.sound_plain
  | heading level => exact RunStyle.sound_ofHeading level
  | header => exact RunStyle.sound_ofHeader
  | codeLine => exact RunStyle.sound_ofCodeLine
  | emphasis _ delimiters ih => exact ih.merge (RunStyle.sound_ofEmphasis delimiters)
  | link _ ih => exact ih.merge (RunStyle.sound_ofLink haccepted)
  | code _ ih => exact ih.merge (RunStyle.sound_ofCode haccepted)
  | caption _ ih => exact ih.merge (RunStyle.sound_ofCaption haccepted)

/-- Whether the styles of a fragment are such styles: that of a text, or that of an image and that of
its caption. -/
def Fragment.IsBuilt (settings : Settings) : Fragment → Prop
  | .text _ style => BuiltStyle settings style
  | .lineBreak => True
  | .image _ _ style =>
    BuiltStyle settings style ∧ BuiltStyle settings (style.merge (.ofCaption settings))

/-- Whether the styles of a segment are such styles: those of a fragment, or those of the label of a
link, as a hyperlink and without one. -/
def Segment.IsBuilt (settings : Settings) : Segment → Prop
  | .fragment f => f.IsBuilt settings
  | .link url children style =>
    (∀ f ∈ labelFragments settings url children (style.merge (.ofLink settings)),
      f.IsBuilt settings) ∧
    ∀ f ∈ labelFragments settings url children style, f.IsBuilt settings

mutual

/-- A piece of inline content in such a style is written in such styles. -/
theorem Inline.fragments_isBuilt : ∀ (x : Inline) {style : RunStyle}, BuiltStyle settings style →
    ∀ f ∈ x.fragments settings style, f.IsBuilt settings
  | .text content, _, h => List.forall_mem_singleton.mpr h
  | .emphasis n children, _, h => fragmentsOf_isBuilt children (h.emphasis n)
  | .code content, _, h => List.forall_mem_singleton.mpr h.code
  | .lineBreak, _, _ => List.forall_mem_singleton.mpr trivial
  | .image url title content, _, h => List.forall_mem_singleton.mpr ⟨h, h.caption⟩
  | .link url title children, _, h => by
    rw [Inline.fragments]
    split
    · exact fragmentsOf_isBuilt children h
    · exact List.forall_mem_singleton.mpr h
  | .unknown, _, _ => List.forall_mem_nil _

/-- Inline content in such a style is written in such styles. -/
theorem fragmentsOf_isBuilt : ∀ (xs : List Inline) {style : RunStyle}, BuiltStyle settings style →
    ∀ f ∈ fragmentsOf settings xs style, f.IsBuilt settings
  | [], _, _ => List.forall_mem_nil _
  | x :: xs, _, h =>
    List.forall_mem_append.mpr ⟨Inline.fragments_isBuilt x h, fragmentsOf_isBuilt xs h⟩

end

theorem labelFragments_isBuilt (url : String) (children : List Inline) {style : RunStyle}
    (h : BuiltStyle settings style) :
    ∀ f ∈ labelFragments settings url children style, f.IsBuilt settings := by
  rw [labelFragments]
  split
  · exact fragmentsOf_isBuilt children h
  · exact List.forall_mem_singleton.mpr h

/-- The segments of content that is neither emphasis nor a link are its fragments. -/
theorem leaf_isBuilt (x : Inline) {style : RunStyle} (h : BuiltStyle settings style) :
    ∀ y ∈ (x.fragments settings style).map Segment.fragment, y.IsBuilt settings :=
  List.forall_mem_map.mpr (Inline.fragments_isBuilt x h)

mutual

/-- A piece of inline content in such a style is written into a paragraph in such styles. -/
theorem Inline.segments_isBuilt : ∀ (x : Inline) {style : RunStyle}, BuiltStyle settings style →
    ∀ y ∈ x.segments settings style, y.IsBuilt settings
  | .emphasis n children, _, h => segmentsOf_isBuilt children (h.emphasis n)
  | .link url title children, _, h => by
    rw [Inline.segments]
    split
    · exact segmentsOf_isBuilt children h
    · exact List.forall_mem_singleton.mpr
        ⟨labelFragments_isBuilt url children h.link, labelFragments_isBuilt url children h⟩
  | .text content, _, h => leaf_isBuilt (.text content) h
  | .code content, _, h => leaf_isBuilt (.code content) h
  | .lineBreak, _, h => leaf_isBuilt .lineBreak h
  | .image url title content, _, h => leaf_isBuilt (.image url title content) h
  | .unknown, _, h => leaf_isBuilt .unknown h

/-- Inline content in such a style is written into a paragraph in such styles. -/
theorem segmentsOf_isBuilt : ∀ (xs : List Inline) {style : RunStyle}, BuiltStyle settings style →
    ∀ y ∈ segmentsOf settings xs style, y.IsBuilt settings
  | [], _, _ => List.forall_mem_nil _
  | x :: xs, _, h =>
    List.forall_mem_append.mpr ⟨Inline.segments_isBuilt x h, segmentsOf_isBuilt xs h⟩

end

/-- Every passage of a text is written in such styles. -/
theorem Passage.segments_isBuilt (p : Passage) :
    ∀ y ∈ p.segments settings, y.IsBuilt settings := by
  cases p with
  | heading level content => exact segmentsOf_isBuilt content (.heading level)
  | itemStart level mark content =>
    exact List.forall_mem_cons.mpr ⟨BuiltStyle.plain, segmentsOf_isBuilt content .plain⟩
  | codeLine first last line =>
    rw [Passage.segments]
    split
    · exact List.forall_mem_nil _
    · exact List.forall_mem_singleton.mpr BuiltStyle.codeLine
  | cell header content =>
    cases header
    · exact segmentsOf_isBuilt content .plain
    · exact segmentsOf_isBuilt content .header
  | paragraph content => exact segmentsOf_isBuilt content .plain
  | quoted content => exact segmentsOf_isBuilt content .plain
  | rule => exact List.forall_mem_nil _
  | spacer => exact List.forall_mem_nil _

end Built

/-! ### Images -/

/-- A drawing can be made of an image exactly if XML can hold its file name and its size fits. -/
theorem isSome_drawing?_iff {settings : Settings} {id number : Nat} {name : String} :
    (drawing? settings id number name).isSome = true ↔
      isCompatibleText name = true ∧ FitsDrawing settings.imageWidth ∧
        FitsDrawing settings.imageHeight := by
  unfold drawing? FitsDrawing
  rcases emuOfInches? settings.imageWidth with _ | width
  · simp
  · rcases emuOfInches? settings.imageHeight with _ | height
    · simp
    · simp only [bind, Option.bind]
      split <;> simp_all [and_assoc]

variable {env : Surroundings} {s t : RenderState} {url alt : String} {style : RunStyle}

/-- Writing a caption never returns that the image is there. -/
theorem captionOutcome_ne_true (env : Surroundings) (alt : String) (style : RunStyle)
    (remark : String) (s : RenderState) :
    (captionOutcome env alt style remark s).result ≠ .ok true := by
  rcases hmade : captionRun env.settings alt style Run.empty with ⟨r, _ | e⟩ <;>
    simp [captionOutcome, hmade]

/-- An image that is loaded is drawn exactly if the registry accepts it and a drawing can be made of
it. -/
theorem embedImage_eq_true_iff {content : Bytes} {mediaType : Option String}
    (h : loadImage env url s = (t, .ok (.image content mediaType))) (attached : Bool) :
    (embedImage env attached url alt style s).result = .ok true ↔
      (env.faults.register = none ∧ env.faults.relate s.registrations = none) ∧
        (drawing? env.settings 0 0 (imageFileName url (imageKind url mediaType))).isSome = true := by
  rw [← registrations_of_load h]
  by_cases haccept : env.faults.register = none ∧ env.faults.relate t.registrations = none
  · have hdraw := drawImage_of_accepted haccept.1 haccept.2 url (imageKind url mediaType) content
    rw [drawing?_eq] at hdraw
    rcases hdrawing : drawing? env.settings 0 0 (imageFileName url (imageKind url mediaType)) with
      _ | d
    · rw [hdrawing] at hdraw
      rw [embedImage_of_undrawn attached alt style h hdraw]
      simp [captionOutcome_ne_true]
    · rw [hdrawing] at hdraw
      obtain ⟨log, hembed⟩ := embedImage_of_drawn attached alt style h hdraw
      rw [hembed]
      simp [haccept]
  · obtain ⟨n, hdraw⟩ := drawImage_of_refused haccept url (imageKind url mediaType) content
    rw [embedImage_of_undrawn attached alt style h hdraw]
    simp [captionOutcome_ne_true, haccept]

/-! ### All of it -/

/-- A number of accepted settings is above zero unless it is none, and a colour is six hexadecimal
digits. The passages of a text are written in built styles, and such a style can be applied unless it
is that of code and XML cannot hold the font for code. A length of an image fits a drawing exactly if
it is a number below the limit, and an image that is loaded from a file name that XML can hold is drawn
exactly if the registry accepts it and both lengths fit. -/
theorem accepted_settings_usable {settings : Settings} (haccepted : settings.Accepted) :
    (∀ f : NumberField, (f.get settings).IsPositive ↔ f.get settings ≠ .nan) ∧
    (∀ f : ColorField, isHexColor (f.get settings) = true) ∧
    (∀ p : Passage, ∀ y ∈ p.segments settings, y.IsBuilt settings) ∧
    (∀ style, BuiltStyle settings style →
      (style.apply settings.codeFont).Stops
        (if style.monospace then textFailure? settings.codeFont else none)) ∧
    (∀ f : NumberField, f = .imageWidth ∨ f = .imageHeight →
      (FitsDrawing (f.get settings) ↔
        f.get settings ≠ .nan ∧ ¬(f.get settings).AtLeast drawingLimit)) ∧
    (∀ env : Surroundings, env.settings = settings → ∀ s t url content mediaType,
      loadImage env url s = (t, .ok (.image content mediaType)) →
      isCompatibleText (imageFileName url (imageKind url mediaType)) = true →
      ∀ attached alt style,
        (embedImage env attached url alt style s).result = .ok true ↔
          (env.faults.register = none ∧ env.faults.relate s.registrations = none) ∧
            FitsDrawing settings.imageWidth ∧ FitsDrawing settings.imageHeight) := by
  refine ⟨haccepted.isPositive_iff, haccepted.isHexColor, Passage.segments_isBuilt,
    fun style hstyle ↦ (hstyle.sound haccepted).apply_stops settings.codeFont,
    fun f _ ↦ ?_, ?_⟩
  · by_cases hnan : f.get settings = .nan
    · simp [hnan, not_fitsDrawing_nan]
    · rw [fitsDrawing_iff ((haccepted.isPositive_iff f).mpr hnan), and_iff_right hnan]
  · rintro env rfl s t url content mediaType hload hname attached alt style
    rw [embedImage_eq_true_iff hload, isSome_drawing?_iff, and_iff_right hname]

/-- Surroundings with accepted settings in which images are as large as a whole number of inches lets
them be. -/
def largeImages : Surroundings :=
  { sameImage with settings := { imageWidth := .ofNat 29826161, imageHeight := .ofNat 29826161 } }

theorem largeImages_accepted : largeImages.settings.Accepted :=
  .withOverrides Settings.accepted_default
    (show Settings.withOverrides {}
      [(.text "image_width_in", .int 29826161), (.text "image_height_in", .int 29826161)] =
        .ok largeImages.settings by decide +kernel)

theorem accepted_settings_usable_largeImages :
    largeImages.settings.Accepted ∧ FitsDrawing largeImages.settings.imageWidth ∧
      (embedImage largeImages true "http://b/c.png" "x" .plain {}).result = .ok true := by
  obtain ⟨-, -, -, -, hlengths, himages⟩ := accepted_settings_usable largeImages_accepted
  have hvalue : Binary64.ofNat 29826161 = .finite false (29826161 * 2 ^ 28) (-28) := by
    decide +kernel
  have hlimit : ¬(Binary64.ofNat 29826161).AtLeast drawingLimit := by
    rw [hvalue]
    norm_num [AtLeast, drawingLimit, maxDrawingExtent, emuPerInch]
  have hfits : FitsDrawing largeImages.settings.imageWidth :=
    (hlengths .imageWidth (.inl rfl)).mpr ⟨by decide +kernel, hlimit⟩
  have hload : loadImage largeImages "http://b/c.png" {} =
      ((loadImage largeImages "http://b/c.png" {}).1, .ok (.image [1, 2] none)) := by
    refine Prod.ext rfl ?_
    decide +kernel
  exact ⟨largeImages_accepted, hfits,
    (himages largeImages rfl {} _ _ _ _ hload (by decide +kernel) true "x" .plain).mpr
      ⟨⟨rfl, rfl⟩, hfits, hfits⟩⟩

/-- Surroundings with accepted settings in which the width of images is no number. -/
def nanWidth : Surroundings := { sameImage with settings := { imageWidth := .nan } }

/-- A width that is no number is accepted, and no image is drawn with it. -/
theorem nanWidth_undrawn :
    nanWidth.settings.Accepted ∧ ¬nanWidth.settings.imageWidth.IsPositive ∧
      (loadImage nanWidth "http://b/c.png" {}).2 = .ok (.image [1, 2] none) ∧
      (embedImage nanWidth true "http://b/c.png" "x" .plain {}).result = .ok false :=
  ⟨.withOverrides Settings.accepted_default
    (show Settings.withOverrides {} [(.text "image_width_in", .float .nan)] =
      .ok nanWidth.settings by decide +kernel), id, by decide +kernel, by decide +kernel⟩

end Folio
