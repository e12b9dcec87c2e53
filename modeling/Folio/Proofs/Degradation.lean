import Folio.Proofs.Hyperlink
import Folio.Proofs.Look

/-!
# Links degrade gracefully

A link that cannot become a hyperlink is written as text, and what a reader misses then is only the
colour, the underline and the link itself. Labels may fail at any place and for any reason of their
own (`LabelFault`), and the registry may refuse any targets: the runs that content without images
becomes show the same texts in the same fonts, sizes and shadings (`Word.Run.plainView`), and those
are the runs that it becomes where no hyperlinks are allowed at all (`links_degrade`). The one
condition is that the colour around the content can be set, which the colour of links hides while a
link succeeds (`links_degrade_unsettable`).
-/

set_option autoImplicit false
set_option relaxedAutoImplicit false

namespace Folio

open Word

/-! ### Runs without the accents of links -/

/-- Whether a property is one that the style of links gives: a colour or an underline. -/
def Word.RunProperty.isAccent : RunProperty → Bool
  | .color _ => true
  | .underline => true
  | _ => false

/-- What a run shows apart from its colour and its underline: its other properties and its
content. -/
def Word.Run.plainView (r : Run) : List RunProperty × List RunItem :=
  (r.propertyList.filter fun x ↦ !x.isAccent, r.items)

/-- A look without colour and underline. -/
def Look.withoutAccents (l : Look) : Look := { l with color := none, underline := false }

/-- The properties of a look that are no accents are those of the look without accents. -/
theorem Look.filter_properties (l : Look) :
    (l.properties.filter fun x ↦ !x.isAccent) = l.withoutAccents.properties := by
  have hpart : ∀ k, (l.part k).filter (fun x ↦ !x.isAccent) = l.withoutAccents.part k := by
    obtain ⟨font, bold, italic, color, size, underline, shades⟩ := l
    intro k
    unfold Look.part Look.withoutAccents
    split
    · cases font <;> rfl
    · cases bold <;> rfl
    · cases italic <;> rfl
    · cases color <;> rfl
    · cases size <;> rfl
    · cases underline <;> rfl
    · refine List.filter_eq_self.mpr fun x hx ↦ ?_
      obtain ⟨fill, -, rfl⟩ := List.mem_map.mp hx
      rfl
    · rfl
  rw [Look.properties, List.filter_flatMap, Look.properties]
  exact List.flatMap_congr fun k _ ↦ hpart k

/-! ### Styles that differ in accents -/

/-- Whether the colour of a style, if it gives one, can be set on a run. -/
def RunStyle.isColorable (style : RunStyle) : Bool :=
  (givenFailure? colorFailure? style.color).isNone

/-- A style that differs from another one in accents at most, and whose colour can be set if that of
the other one can. -/
structure RunStyle.Plainer (a b : RunStyle) : Prop where
  bold : a.bold = b.bold
  italic : a.italic = b.italic
  monospace : a.monospace = b.monospace
  shade : a.shade = b.shade
  size : a.size = b.size
  colorable : b.isColorable = true → a.isColorable = true

namespace RunStyle

variable {a b : RunStyle}

theorem Plainer.refl (a : RunStyle) : a.Plainer a := ⟨rfl, rfl, rfl, rfl, rfl, id⟩

/-- A style whose colour can be set is plainer than the same style on a link. -/
theorem plainer_ofLink (settings : Settings) (h : a.isColorable = true) :
    a.Plainer (a.merge (.ofLink settings)) where
  bold := by simp [merge, ofLink]
  italic := by simp [merge, ofLink]
  monospace := by simp [merge, ofLink]
  shade := by simp [merge, ofLink]
  size := by simp [merge, ofLink]
  colorable _ := h

/-- A style within a plainer one is plainer. -/
theorem Plainer.merge (h : a.Plainer b) (inner : RunStyle) :
    (a.merge inner).Plainer (b.merge inner) where
  bold := by simp [RunStyle.merge, h.bold]
  italic := by simp [RunStyle.merge, h.italic]
  monospace := by simp [RunStyle.merge, h.monospace]
  shade := by simp [RunStyle.merge, h.shade]
  size := by simp [RunStyle.merge, h.size]
  colorable := by
    have hcolorable := h.colorable
    unfold isColorable RunStyle.merge innerText at *
    dsimp only
    split
    · split
      · exact hcolorable
      · exact id
    · exact hcolorable

/-- Where a style can be applied, so can a plainer one. -/
theorem Plainer.failure?_eq_none (h : a.Plainer b) {codeFont : String}
    (hb : b.failure? codeFont = none) : a.failure? codeFont = none := by
  have hcolorable := h.colorable
  simp only [failure?, fontFailure?, isColorable, Option.or_eq_none_iff, Option.isNone_iff_eq_none,
    h.monospace, h.shade, h.size] at hb hcolorable ⊢
  exact ⟨hb.1, hcolorable hb.2.1, hb.2.2⟩

/-- A plainer style gives the same look but for the accents. -/
theorem Plainer.look_eq (h : a.Plainer b) (codeFont : String) :
    (a.givenLook codeFont).withoutAccents = (b.givenLook codeFont).withoutAccents := by
  simp only [givenLook, Look.withoutAccents, h.bold, h.italic, h.monospace, h.shade, h.size]

end RunStyle

/-! ### What steps show -/

/-- What an outcome shows: its runs without accents, and how it ended. -/
def Outcome.shown {ω : Type} (runs : ω → List Run) (o : Outcome ω Unit) :
    List (List RunProperty × List RunItem) × Except Failure Unit :=
  ((o.written.flatMap runs).map Run.plainView, o.result)

/-- Two steps show the same, whatever states they begin in. -/
def Step.ShowsLike {ω ω' : Type} (runs : ω → List Run) (runs' : ω' → List Run) (a : Step ω Unit)
    (b : Step ω' Unit) : Prop :=
  ∀ s t, (a s).shown runs = (b t).shown runs'

namespace Step

variable {ω ω' α β : Type} {runs : ω → List Run} {runs' : ω' → List Run}

/-- What a sequence shows after its first step has succeeded. -/
theorem shown_bind_of_ok {a b : Step ω Unit} {s : RenderState} (h : (a s).result = .ok ()) :
    (a.bind (fun _ ↦ b) s).shown runs =
      (((a s).shown runs).1 ++ ((b (a s).state).shown runs).1,
        ((b (a s).state).shown runs).2) := by
  simp only [bind_of_ok h, Outcome.shown, List.flatMap_append, List.map_append]

/-- What a sequence shows whose first step has failed. -/
theorem shown_bind_of_error {a b : Step ω Unit} {s : RenderState} {e : Failure}
    (h : (a s).result = .error e) : (a.bind (fun _ ↦ b) s).shown runs = (a s).shown runs := by
  simp only [bind_of_error h, Outcome.shown, h]

theorem ShowsLike.bind {a c : Step ω Unit} {b d : Step ω' Unit} (hab : a.ShowsLike runs runs' b)
    (hcd : c.ShowsLike runs runs' d) :
    (a.bind fun _ ↦ c).ShowsLike runs runs' (b.bind fun _ ↦ d) := by
  intro s t
  have hfirst := hab s t
  have hresult : (a s).result = (b t).result := congrArg Prod.snd hfirst
  rcases hb : (b t).result with e | ⟨⟩
  · rw [shown_bind_of_error (hresult.trans hb), shown_bind_of_error hb, hfirst]
  · rw [shown_bind_of_ok (hresult.trans hb), shown_bind_of_ok hb, hfirst, hcd]

theorem showsLike_done : (done () : Step ω Unit).ShowsLike runs runs' (done ()) := fun _ _ ↦ rfl

/-- Steps for a list show what steps for the parts of its elements show. -/
theorem showsLike_forEach {step : α → Step ω Unit} {step' : β → Step ω' Unit} {parts : α → List β}
    {as : List α} (h : ∀ a ∈ as, (step a).ShowsLike runs runs' (forEach step' (parts a))) :
    (forEach step as).ShowsLike runs runs' (forEach step' (as.flatMap parts)) := by
  induction as with
  | nil => exact showsLike_done
  | cons a as ih =>
    rw [forEach_cons, List.flatMap_cons, forEach_append]
    exact (h a List.mem_cons_self).bind (ih fun b hb ↦ h b (List.mem_cons_of_mem a hb))

end Step

/-! ### Content without images -/

mutual

/-- Whether a piece of inline content has no images. -/
def Inline.isImageFree : Inline → Bool
  | .emphasis _ children => imageFree children
  | .link _ _ children => imageFree children
  | .image _ _ _ => false
  | _ => true

/-- Whether inline content has no images. -/
def imageFree : List Inline → Bool
  | [] => true
  | x :: xs => x.isImageFree && imageFree xs

end

/-- Fragments without images that are the same but for their styles, of which the first is
plainer. -/
inductive Fragment.Plainer : Fragment → Fragment → Prop
  | text (content : String) {a b : RunStyle} (h : a.Plainer b) :
      Plainer (.text content a) (.text content b)
  | lineBreak : Plainer .lineBreak .lineBreak

mutual

theorem Inline.fragments_plainer (settings : Settings) :
    ∀ (x : Inline), x.isImageFree = true → ∀ {a b : RunStyle}, a.Plainer b →
      List.Forall₂ Fragment.Plainer (x.fragments settings a) (x.fragments settings b)
  | .text content, _, _, _, h => .cons (.text content h) .nil
  | .emphasis n children, hfree, _, _, h =>
    fragmentsOf_plainer settings children hfree (h.merge _)
  | .code content, _, _, _, h => .cons (.text content (h.merge _)) .nil
  | .lineBreak, _, _, _, _ => .cons .lineBreak .nil
  | .link url title children, hfree, _, _, h => by
    rw [Inline.fragments, Inline.fragments]
    split
    · exact fragmentsOf_plainer settings children hfree h
    · exact .cons (.text url h) .nil
  | .unknown, _, _, _, _ => .nil

/-- Content without images in a plainer style has plainer fragments. -/
theorem fragmentsOf_plainer (settings : Settings) :
    ∀ (xs : List Inline), imageFree xs = true → ∀ {a b : RunStyle}, a.Plainer b →
      List.Forall₂ Fragment.Plainer (fragmentsOf settings xs a) (fragmentsOf settings xs b)
  | [], _, _, _, _ => .nil
  | x :: xs, hfree, _, _, h => by
    obtain ⟨hx, hxs⟩ := Bool.and_eq_true_iff.mp hfree
    exact List.rel_append (x.fragments_plainer settings hx h) (fragmentsOf_plainer settings xs hxs h)

end

/-- The label of a link without images in a plainer style has plainer fragments. -/
theorem labelFragments_plainer (settings : Settings) (url : String) {children : List Inline}
    (hfree : imageFree children = true) {a b : RunStyle} (h : a.Plainer b) :
    List.Forall₂ Fragment.Plainer (labelFragments settings url children a)
      (labelFragments settings url children b) := by
  unfold labelFragments
  split
  · exact fragmentsOf_plainer settings children hfree h
  · exact .cons (.text url h) .nil

section Write

variable {env env' : Surroundings} (hsettings : env'.settings = env.settings)

/-- The view of a run as itself. -/
def oneRun (r : Run) : List Run := [r]

theorem make_showsLike (change : Change Run) :
    (Step.make Run.empty change).ShowsLike oneRun oneRun (Step.make Run.empty change) := by
  intro s t
  unfold Step.make
  rcases change Run.empty with ⟨run, _ | e⟩ <;> rfl

theorem make_shown {change : Change Run} {s : RenderState} (h : (change Run.empty).2 = none) :
    (Step.make Run.empty change s).shown oneRun = ([(change Run.empty).1.plainView], .ok ()) := by
  unfold Step.make
  rcases hchange : change Run.empty with ⟨run, _ | e⟩
  · rfl
  · simp [hchange] at h

/-- The content of a run with a text does not depend on its style, if the style can be applied. -/
theorem textRun_items {settings : Settings} {text : String} {style : RunStyle}
    (hok : (textRun settings text style Run.empty).2 = none) :
    (textRun settings text style Run.empty).1.items =
      (Run.write text Run.empty).1.keepingSpace.items := by
  unfold textRun at hok ⊢
  simp only [Change.all_cons, Change.andThen] at hok ⊢
  rcases hwritten : Run.write text Run.empty with ⟨q, _ | e⟩
  · have hitems := style.apply_leaves settings.codeFont q
    rw [hwritten] at hok
    rcases happlied : style.apply settings.codeFont q with ⟨p, _ | e⟩
    · rw [happlied] at hitems
      have hsame : p.items = q.items := hitems
      simp only [happlied, Change.always_apply, Change.all_nil]
      simp only [Run.keepingSpace, hsame]
    · simp [happlied] at hok
  · simp [hwritten] at hok

/-- Where a text can be written, it can be written in a plainer style, and shows the same. -/
theorem textRun_plainer {settings : Settings} {text : String} {a b : RunStyle} (h : a.Plainer b)
    (hok : (textRun settings text b Run.empty).2 = none) :
    (textRun settings text a Run.empty).2 = none ∧
      (textRun settings text a Run.empty).1.plainView =
        (textRun settings text b Run.empty).1.plainView := by
  have hok' : (textRun settings text a Run.empty).2 = none := by
    rw [textRun_stops_style, Option.or_eq_none_iff] at hok ⊢
    exact ⟨hok.1, h.failure?_eq_none hok.2⟩
  refine ⟨hok', ?_⟩
  rw [Run.plainView, Run.plainView, textRun_items hok, textRun_items hok', textRun_givenLook hok,
    textRun_givenLook hok', Look.filter_properties, Look.filter_properties, h.look_eq]

include hsettings

/-- A fragment without an image shows the same wherever it is written. -/
theorem Fragment.Plainer.write_showsLike {f g : Fragment} (h : f.Plainer g)
    (attached attached' : Bool) :
    (f.write env attached).ShowsLike oneRun oneRun (f.write env' attached') := by
  cases h with
  | lineBreak => exact fun _ _ ↦ rfl
  | text content h =>
    simp only [Fragment.write, writeText, hsettings]
    exact make_showsLike _

/-- Where a fragment can be written, a plainer one can be written and shows the same. -/
theorem Fragment.Plainer.write_shown {f g : Fragment} (h : f.Plainer g) {attached attached' : Bool}
    {s t : RenderState} (hok : (g.write env attached s).result = .ok ()) :
    (f.write env' attached' t).shown oneRun = (g.write env attached s).shown oneRun := by
  cases h with
  | lineBreak => rfl
  | @text content a b h =>
    simp only [Fragment.write, writeText, hsettings] at hok ⊢
    obtain ⟨hplain, hview⟩ := textRun_plainer h (Step.make_result_iff.mp hok)
    rw [make_shown hplain, make_shown (Step.make_result_iff.mp hok), hview]

/-- Where fragments can be written, plainer ones can be written and show the same. -/
theorem forEach_plainer {fs gs : List Fragment} (h : List.Forall₂ Fragment.Plainer fs gs)
    {attached attached' : Bool} {s t : RenderState}
    (hok : (Step.forEach (Fragment.write env attached) gs s).result = .ok ()) :
    (Step.forEach (Fragment.write env' attached') fs t).shown oneRun =
      (Step.forEach (Fragment.write env attached) gs s).shown oneRun := by
  induction h generalizing s t with
  | nil => rfl
  | @cons f g fs gs hfg _ ih =>
    obtain ⟨⟨⟩, hg, hgs⟩ := Step.ok_of_bind_ok hok
    have hfirst : (f.write env' attached' t).shown oneRun = (g.write env attached s).shown oneRun :=
      hfg.write_shown hsettings hg
    have hf : (f.write env' attached' t).result = .ok () := (congrArg Prod.snd hfirst).trans hg
    rw [Step.forEach_cons, Step.forEach_cons, Step.shown_bind_of_ok hf, Step.shown_bind_of_ok hg,
      hfirst, ih hgs]

/-- Fragments without images show the same wherever they are written. -/
theorem forEach_showsLike {fs gs : List Fragment} (h : List.Forall₂ Fragment.Plainer fs gs)
    (attached attached' : Bool) :
    (Step.forEach (Fragment.write env attached) fs).ShowsLike oneRun oneRun
      (Step.forEach (Fragment.write env' attached') fs) := by
  induction h with
  | nil => exact Step.showsLike_done
  | cons hfg _ ih => exact (hfg.write_showsLike hsettings attached attached').bind ih

end Write

/-! ### Links that fail -/

/-- Faults of labels: what a label that is begun in a state leaves, if it fails for a reason of its
own after it has written some runs. -/
def LabelFault := RenderState → Option (List Run × RenderState × Failure)

/-- A label with faults. -/
def faultyLabel (fault : LabelFault) (label : Step Run Unit) : Step Run Unit := fun s ↦
  match fault s with
  | some (written, t, e) => ⟨written, t, .error e⟩
  | none => label s

/-- Writes a link whose label may fail. -/
def writeFaultyLink (env : Surroundings) (fault : LabelFault) (url : String)
    (children : List Inline) (style : RunStyle) : Step ParagraphItem Unit :=
  (writeHyperlink env url (faultyLabel fault
    (writeLabel env false url children (style.merge (.ofLink env.settings))))).bind fun built ↦
      if built then Step.done () else inParagraph (writeLabel env true url children style)

/-- Writes a segment whose label, if it is a link, may fail. -/
def Segment.writeFaulty (env : Surroundings) (fault : LabelFault) :
    Segment → Step ParagraphItem Unit
  | .fragment f => inParagraph (f.write env true)
  | .link url children style => writeFaultyLink env fault url children style

/-- Writes inline content in which the labels of links may fail. -/
def writeFaultyItems (env : Surroundings) (fault : LabelFault) (content : List Inline)
    (style : RunStyle) : Step ParagraphItem Unit :=
  Step.forEach (Segment.writeFaulty env fault) (segmentsOf env.settings content style)

/-- Without faults, inline content is written as ever. -/
theorem writeFaultyItems_none (env : Surroundings) (content : List Inline) (style : RunStyle) :
    writeFaultyItems env (fun _ ↦ none) content style = writeItems env content style := by
  have hsegment : Segment.writeFaulty env (fun _ ↦ none) = Segment.write env := by
    funext x
    cases x <;> rfl
  unfold writeFaultyItems
  rw [writeItems_eq, hsegment]

/-- The fragments of a segment as text: those of a link are those of its label. -/
def Segment.plainFragments (settings : Settings) : Segment → List Fragment
  | .fragment f => [f]
  | .link url children style => labelFragments settings url children style

mutual

theorem Inline.flatMap_plainFragments (settings : Settings) : ∀ (x : Inline) (style : RunStyle),
    (x.segments settings style).flatMap (Segment.plainFragments settings) =
      x.fragments settings style
  | .emphasis n children, style => by
    rw [Inline.segments, Inline.fragments, flatMap_plainFragments settings children]
  | .link url title children, style => by
    rw [Inline.segments, Inline.fragments]
    rcases hurl : isBlankText url
    · simp [Segment.plainFragments, labelFragments]
    · simpa using flatMap_plainFragments settings children style
  | .text content, style => rfl
  | .code content, style => rfl
  | .lineBreak, style => rfl
  | .image url title content, style => rfl
  | .unknown, style => rfl

/-- The segments of inline content as text are its fragments. -/
theorem flatMap_plainFragments (settings : Settings) : ∀ (xs : List Inline) (style : RunStyle),
    (segmentsOf settings xs style).flatMap (Segment.plainFragments settings) =
      fragmentsOf settings xs style
  | [], style => rfl
  | x :: xs, style => by
    rw [segmentsOf, fragmentsOf, List.flatMap_append, x.flatMap_plainFragments,
      flatMap_plainFragments settings xs]

end

/-! ### Segments without images -/

/-- A segment without images, in a style whose colour can be set if it is a link. -/
def Segment.IsPlain : Segment → Prop
  | .fragment f => f.Plainer f
  | .link _ children style => imageFree children = true ∧ style.isColorable = true

/-- The fragments of content without images are plain segments. -/
theorem leaf_isPlain (settings : Settings) {x : Inline} (hfree : x.isImageFree = true)
    (style : RunStyle) : ∀ y ∈ (x.fragments settings style).map Segment.fragment, y.IsPlain := by
  have hall := List.forall₂_same.mp (x.fragments_plainer settings hfree (.refl style))
  intro y hy
  obtain ⟨f, hf, rfl⟩ := List.mem_map.mp hy
  exact hall f hf

mutual

theorem Inline.segments_isPlain (settings : Settings) : ∀ (x : Inline), x.isImageFree = true →
    ∀ {style : RunStyle}, style.isColorable = true → ∀ y ∈ x.segments settings style, y.IsPlain
  | .emphasis n children, hfree, _, h => segmentsOf_isPlain settings children hfree h
  | .link url title children, hfree, _, h => by
    rw [Inline.segments]
    split
    · exact segmentsOf_isPlain settings children hfree h
    · exact List.forall_mem_singleton.mpr ⟨hfree, h⟩
  | .text content, hfree, style, _ => leaf_isPlain settings hfree style
  | .code content, hfree, style, _ => leaf_isPlain settings hfree style
  | .lineBreak, hfree, style, _ => leaf_isPlain settings hfree style
  | .unknown, hfree, style, _ => leaf_isPlain settings hfree style

/-- The segments of content without images are plain in a style whose colour can be set. -/
theorem segmentsOf_isPlain (settings : Settings) : ∀ (xs : List Inline), imageFree xs = true →
    ∀ {style : RunStyle}, style.isColorable = true → ∀ y ∈ segmentsOf settings xs style, y.IsPlain
  | [], _, _, _ => List.forall_mem_nil _
  | x :: xs, hfree, _, h => by
    obtain ⟨hx, hxs⟩ := Bool.and_eq_true_iff.mp hfree
    exact List.forall_mem_append.mpr
      ⟨x.segments_isPlain settings hx h, segmentsOf_isPlain settings xs hxs h⟩

end

section Links

variable {env env' : Surroundings}

/-- Runs show the same in a paragraph. -/
theorem inParagraph_shown (step : Step Run Unit) (s : RenderState) :
    (inParagraph step s).shown ParagraphItem.runs = (step s).shown oneRun := by
  have hruns (rs : List Run) : (rs.map ParagraphItem.run).flatMap ParagraphItem.runs =
      rs.flatMap oneRun := List.flatMap_map ParagraphItem.run ParagraphItem.runs rs
  simp only [Outcome.shown, inParagraph, Step.mapWritten_written, Step.mapWritten_result, hruns]

/-- A label with faults that can be written has been written without one. -/
theorem faultyLabel_of_ok {fault : LabelFault} {label : Step Run Unit} {s : RenderState}
    (h : (faultyLabel fault label s).result = .ok ()) : faultyLabel fault label s = label s := by
  unfold faultyLabel at *
  split at h
  · cases h
  · rfl

variable (hsettings : env'.settings = env.settings)

include hsettings

/-- A link shows the fragments of its label, whether it becomes a hyperlink or not. -/
theorem writeFaultyLink_showsLike (fault : LabelFault) (attached : Bool) (url : String)
    {children : List Inline} (hfree : imageFree children = true) {style : RunStyle}
    (hstyle : style.isColorable = true) :
    (writeFaultyLink env fault url children style).ShowsLike ParagraphItem.runs oneRun
      (Step.forEach (Fragment.write env' attached)
        (labelFragments env.settings url children style)) := by
  have hplainer := labelFragments_plainer env.settings url hfree
    (RunStyle.plainer_ofLink env.settings hstyle)
  have hagain : (inParagraph (writeLabel env true url children style)).ShowsLike
      ParagraphItem.runs oneRun (Step.forEach (Fragment.write env' attached)
        (labelFragments env.settings url children style)) := by
    intro s t
    rw [inParagraph_shown, writeLabel_eq]
    exact forEach_showsLike hsettings hplainer true attached s t
  intro s t
  unfold writeFaultyLink
  rcases writeHyperlink_cases env url (faultyLabel fault (writeLabel env false url children
      (style.merge (.ofLink env.settings)))) s with
    ⟨-, log, hlink⟩ | ⟨-, e, log, -, hlink⟩ | ⟨-, hlabel, hlink⟩
  · -- The target is refused: the label is written as text.
    rw [Step.bind_of_ok (congrArg Outcome.result hlink), hlink]
    exact hagain _ t
  · -- The label has failed and is taken back: it is written again as text.
    rw [Step.bind_of_ok (congrArg Outcome.result hlink), hlink]
    exact hagain _ t
  · -- The label has been written: it shows what it shows as text.
    have hsame := faultyLabel_of_ok hlabel
    rw [hsame] at hlabel hlink
    have hshown := @forEach_plainer env env' hsettings _ _ hplainer false attached _ t
      (by rw [← writeLabel_eq]; exact hlabel)
    rw [hshown, Step.bind_of_ok (congrArg Outcome.result hlink), hlink, ← writeLabel_eq]
    simp only [↓reduceIte, Step.done_apply, List.append_nil, Outcome.shown, hlabel,
      List.flatMap_cons, List.flatMap_nil, ParagraphItem.runs]
    rw [show ∀ rs : List Run, rs.flatMap oneRun = rs from List.flatMap_singleton']

/-- Content without images shows its fragments, whichever of its links become hyperlinks. -/
theorem writeFaultyItems_showsLike (fault : LabelFault) (attached : Bool) {content : List Inline}
    (hfree : imageFree content = true) {style : RunStyle} (hstyle : style.isColorable = true) :
    (writeFaultyItems env fault content style).ShowsLike ParagraphItem.runs oneRun
      (writeRuns env' attached content style) := by
  unfold writeFaultyItems
  rw [writeRuns_eq, hsettings, ← flatMap_plainFragments]
  refine Step.showsLike_forEach fun x hx ↦ ?_
  have hplain := segmentsOf_isPlain env.settings content hfree hstyle x hx
  cases x with
  | link url children style =>
    exact writeFaultyLink_showsLike hsettings fault attached url hplain.1 hplain.2
  | fragment f =>
    rw [Segment.plainFragments, Step.forEach_singleton]
    intro s t
    exact (inParagraph_shown _ s).trans (hplain.write_showsLike hsettings true attached s t)

end Links

/-! ### Graceful degradation -/

/-- Links degrade gracefully. The runs that content without images becomes in a paragraph, in a
style whose colour can be set, show the same apart from colour and underline, and the writing has
the same result: whichever targets the registry refuses and wherever labels fail for reasons of
their own, as where nothing fails, and as where the content is written as runs alone. -/
theorem links_degrade (settings : Settings) {content : List Inline}
    (hfree : imageFree content = true) {style : RunStyle} (hstyle : style.isColorable = true)
    (env failing : Surroundings) (fault : LabelFault) (attached : Bool) (s t u : RenderState) :
    (writeFaultyItems { failing with settings := settings } fault content style s).shown
        ParagraphItem.runs =
      (writeItems { env with settings := settings } content style t).shown ParagraphItem.runs ∧
    (writeFaultyItems { failing with settings := settings } fault content style s).shown
        ParagraphItem.runs =
      (writeRuns { env with settings := settings } attached content style u).shown oneRun := by
  have hfaulty := @writeFaultyItems_showsLike { failing with settings := settings }
    { env with settings := settings } rfl fault attached content hfree style hstyle
  have hsound := @writeFaultyItems_showsLike { env with settings := settings }
    { env with settings := settings } rfl (fun _ ↦ none) attached content hfree style hstyle
  rw [writeFaultyItems_none] at hsound
  exact ⟨(hfaulty s u).trans (hsound t u).symm, hfaulty s u⟩

/-- A link in emphasis with a code span, and a link that shows nothing. -/
def emphasizedLinks : List Inline :=
  [.emphasis 2 [.text "a ", .link "http://a/" none [.code "b", .link "http://b/" none []]],
    .lineBreak, .link "http://c/" none []]

/-- Surroundings in which the registry refuses the target of the first link. -/
def refusingFirst : Surroundings :=
  { faults := { relate := fun n ↦ if n = 0 then some "refused" else none } }

/-- A label that fails before it has written a run. -/
def failingLabels : LabelFault := fun s ↦ some ([], s, .service "label")

theorem links_degrade_emphasizedLinks :
    imageFree emphasizedLinks = true ∧ RunStyle.ofHeader.isColorable = true ∧
      (writeFaultyItems refusingFirst failingLabels emphasizedLinks .ofHeader {}).written.flatMap
        ParagraphItem.hyperlinks = [] ∧
      (writeItems {} emphasizedLinks .ofHeader {}).written.flatMap
        ParagraphItem.hyperlinks = [9, 10] ∧
      (writeFaultyItems { refusingFirst with settings := {} } failingLabels emphasizedLinks
          .ofHeader {}).shown ParagraphItem.runs =
        (writeItems { ({} : Surroundings) with settings := {} } emphasizedLinks .ofHeader {}).shown
          ParagraphItem.runs :=
  ⟨by decide, by decide, by decide +kernel, by decide +kernel,
    (links_degrade {} (by decide) (by decide) {} refusingFirst failingLabels true {} {} {}).1⟩

/-- A style with a size, and a colour that is none. -/
def unsettable : RunStyle := { color := some "zz", size := some 32 }

/-- The colour of links hides one that cannot be set: the label of a hyperlink has its size. Where
the content is written as runs alone, it fails before it has a size, and so does the label that is
written as text because a hyperlink fails for the colour of links. -/
theorem links_degrade_unsettable :
    imageFree [.link "u" none [.text "x"]] = true ∧
      (writeItems {} [.link "u" none [.text "x"]] unsettable {}).shown ParagraphItem.runs =
        ([([.bold false, .italic false, .size (some 32)], [.text "x" true])], .ok ()) ∧
      (writeRuns {} true [.link "u" none [.text "x"]] unsettable {}).shown oneRun =
        ([([.bold false, .italic false], [.text "x" false])], .error (.badHexNumber "zz")) ∧
      (writeItems { settings := { linkColor := "yy" } } [.link "u" none [.text "x"]] unsettable
        {}).shown ParagraphItem.runs =
          ([([.bold false, .italic false], [.text "x" false])],
            .error (.badHexNumber "zz")) := by
  decide +kernel

end Folio
