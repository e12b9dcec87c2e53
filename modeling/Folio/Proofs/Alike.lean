import Folio.Proofs.Outcome
import Folio.Proofs.Passage
import Mathlib.Data.List.Forall2

/-!
# Alike and sound fragments

The same content written in two styles gives fragments that are the same but for their styles. If
the styles are sound and agree in what can fail, then so do those of the fragments
(`fragmentsOf_alike`). Everything that a text consists of is written in sound styles
(`Passage.segments_sound`).
-/

set_option autoImplicit false
set_option relaxedAutoImplicit false

namespace Folio

open Word

/-! ### Alike fragments -/

/-- Sound styles that agree in what can fail. -/
structure RunStyle.Alike (a b : RunStyle) : Prop where
  left : a.Sound
  right : b.Sound
  monospace : a.monospace = b.monospace

namespace RunStyle

theorem Sound.alike {a : RunStyle} (h : a.Sound) : a.Alike a := ⟨h, h, rfl⟩

/-- A sound style within alike styles gives alike styles. -/
theorem Alike.merge {a b inner : RunStyle} (h : a.Alike b) (hinner : inner.Sound) :
    (a.merge inner).Alike (b.merge inner) :=
  ⟨h.left.merge hinner, h.right.merge hinner, by simp [RunStyle.merge, h.monospace]⟩

/-- A style as that of a link is alike to the style itself. -/
theorem Sound.link_alike {settings : Settings} (haccepted : settings.Accepted) {style : RunStyle}
    (h : style.Sound) : (style.merge (.ofLink settings)).Alike style :=
  ⟨h.merge (sound_ofLink haccepted), h, by simp [RunStyle.merge, ofLink]⟩

/-- Texts in alike styles can be written for the same texts and fonts. -/
theorem Alike.textRunFailure?_eq {a b : RunStyle} (h : a.Alike b) (settings : Settings)
    (text : String) : textRunFailure? settings text a = textRunFailure? settings text b := by
  simp only [textRunFailure?, fontFailure?, h.monospace]

end RunStyle

/-- Fragments that are the same but for their styles, which are alike. -/
inductive Fragment.Alike : Fragment → Fragment → Prop
  | text (content : String) {a b : RunStyle} (h : a.Alike b) :
      Alike (.text content a) (.text content b)
  | lineBreak : Alike .lineBreak .lineBreak
  | image (url alt : String) {a b : RunStyle} (h : a.Alike b) :
      Alike (.image url alt a) (.image url alt b)

mutual

/-- A piece of inline content has alike fragments in alike styles. -/
theorem Inline.fragments_alike {settings : Settings} (haccepted : settings.Accepted) :
    ∀ (x : Inline) {a b : RunStyle}, a.Alike b →
      List.Forall₂ Fragment.Alike (x.fragments settings a) (x.fragments settings b)
  | .text content, _, _, h => .cons (.text content h) .nil
  | .emphasis n children, _, _, h =>
    fragmentsOf_alike haccepted children (h.merge (RunStyle.sound_ofEmphasis n))
  | .code content, _, _, h =>
    .cons (.text content (h.merge (RunStyle.sound_ofCode haccepted))) .nil
  | .lineBreak, _, _, _ => .cons .lineBreak .nil
  | .image url title content, _, _, h => .cons (.image url _ h) .nil
  | .link url title children, _, _, h => by
    rw [Inline.fragments, Inline.fragments]
    split
    · exact fragmentsOf_alike haccepted children h
    · exact .cons (.text url h) .nil
  | .unknown, _, _, _ => .nil

/-- Inline content has alike fragments in alike styles. -/
theorem fragmentsOf_alike {settings : Settings} (haccepted : settings.Accepted) :
    ∀ (xs : List Inline) {a b : RunStyle}, a.Alike b →
      List.Forall₂ Fragment.Alike (fragmentsOf settings xs a) (fragmentsOf settings xs b)
  | [], _, _, _ => .nil
  | x :: xs, _, _, h =>
    List.rel_append (Inline.fragments_alike haccepted x h) (fragmentsOf_alike haccepted xs h)

end

/-- The label of a link has alike fragments in alike styles. -/
theorem labelFragments_alike {settings : Settings} (haccepted : settings.Accepted) (url : String)
    (children : List Inline) {a b : RunStyle} (h : a.Alike b) :
    List.Forall₂ Fragment.Alike (labelFragments settings url children a)
      (labelFragments settings url children b) := by
  unfold labelFragments
  split
  · exact fragmentsOf_alike haccepted children h
  · exact .cons (.text url h) .nil

/-! ### Sound segments -/

/-- A fragment in a sound style. -/
def Fragment.Sound (f : Fragment) : Prop := f.Alike f

/-- A segment in a sound style. -/
def Segment.Sound : Segment → Prop
  | .fragment f => f.Sound
  | .link _ _ style => style.Sound

/-- Fragments of the label of a link in a sound style are sound. -/
theorem labelFragments_sound {settings : Settings} (haccepted : settings.Accepted) (url : String)
    (children : List Inline) {style : RunStyle} (h : style.Sound) :
    ∀ f ∈ labelFragments settings url children style, f.Sound := by
  have hall := List.forall₂_same.mp (labelFragments_alike haccepted url children h.alike)
  exact hall

/-- The fragments of a piece of inline content in a sound style are sound segments. -/
theorem leaf_sound {settings : Settings} (haccepted : settings.Accepted) (x : Inline)
    {style : RunStyle} (h : style.Sound) :
    ∀ y ∈ (x.fragments settings style).map Segment.fragment, y.Sound := by
  have hall := List.forall₂_same.mp (x.fragments_alike haccepted h.alike)
  intro y hy
  obtain ⟨f, hf, rfl⟩ := List.mem_map.mp hy
  exact hall f hf

mutual

/-- The segments of a piece of inline content in a sound style are sound. -/
theorem Inline.segments_sound {settings : Settings} (haccepted : settings.Accepted) :
    ∀ (x : Inline) {style : RunStyle}, style.Sound → ∀ y ∈ x.segments settings style, y.Sound
  | .emphasis n children, _, h =>
    segmentsOf_sound haccepted children (h.merge (RunStyle.sound_ofEmphasis n))
  | .link url title children, _, h => by
    rw [Inline.segments]
    split
    · exact segmentsOf_sound haccepted children h
    · intro y hy
      rw [List.mem_singleton.mp hy]
      exact h
  | .text content, _, h => leaf_sound haccepted (.text content) h
  | .code content, _, h => leaf_sound haccepted (.code content) h
  | .lineBreak, _, h => leaf_sound haccepted .lineBreak h
  | .image url title content, _, h => leaf_sound haccepted (.image url title content) h
  | .unknown, _, h => leaf_sound haccepted .unknown h

/-- The segments of inline content in a sound style are sound. -/
theorem segmentsOf_sound {settings : Settings} (haccepted : settings.Accepted) :
    ∀ (xs : List Inline) {style : RunStyle}, style.Sound →
      ∀ y ∈ segmentsOf settings xs style, y.Sound
  | [], _, _ => List.forall_mem_nil _
  | x :: xs, _, h =>
    List.forall_mem_append.mpr
      ⟨Inline.segments_sound haccepted x h, segmentsOf_sound haccepted xs h⟩

end

/-- The segments of a passage are sound. -/
theorem Passage.segments_sound {settings : Settings} (haccepted : settings.Accepted) (p : Passage) :
    ∀ y ∈ p.segments settings, y.Sound := by
  have hcontent (xs : List Inline) {style : RunStyle} (h : style.Sound) :
      ∀ y ∈ segmentsOf settings xs style, y.Sound := segmentsOf_sound haccepted xs h
  have htext (s : String) {style : RunStyle} (h : style.Sound) :
      (Segment.fragment (.text s style)).Sound := .text s h.alike
  cases p with
  | heading level content => exact hcontent content (RunStyle.sound_ofHeading level)
  | itemStart level mark content =>
    exact List.forall_mem_cons.mpr
      ⟨htext mark RunStyle.sound_plain, hcontent content RunStyle.sound_plain⟩
  | codeLine first last line =>
    rw [Passage.segments]
    split
    · exact List.forall_mem_nil _
    · exact List.forall_mem_singleton.mpr (htext line RunStyle.sound_ofCodeLine)
  | cell header content =>
    cases header
    · exact hcontent content RunStyle.sound_plain
    · exact hcontent content RunStyle.sound_ofHeader
  | paragraph content => exact hcontent content RunStyle.sound_plain
  | quoted content => exact hcontent content RunStyle.sound_plain
  | rule => exact List.forall_mem_nil _
  | spacer => exact List.forall_mem_nil _

end Folio
