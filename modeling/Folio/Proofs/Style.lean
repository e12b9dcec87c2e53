import Folio.Proofs.Settings
import Folio.Render.Inline
import Mathlib.Data.List.TakeWhile

/-!
# When a run can be written

Whether a change of a run stops does not depend on the run (`Change.Stops`). Applying a style stops at
the first of its font, colour, size and shading that cannot be set (`RunStyle.apply_stops`). A style
is sound if its colour and shading are six hexadecimal digits and its size is that of a heading, as
it is for every style that a document is built from. Applying a sound style stops only at a font that
XML cannot hold (`RunStyle.Sound.apply_stops`), and writing a text or a caption stops besides only at
a text that XML cannot hold (`textRun_stops`, `captionRun_stops`).
-/

set_option autoImplicit false
set_option relaxedAutoImplicit false

namespace Folio

open Word

/-! ### Changes -/

namespace Change

variable {α β : Type}

/-- A change stops for one and the same reason whatever it is made to, or never. -/
def Stops (c : Change α) (why : Option Failure) : Prop := ∀ x, (c x).2 = why

/-- A change leaves an aspect of what it is made to as it is. -/
def Leaves (c : Change α) (aspect : α → β) : Prop := ∀ x, aspect (c x).1 = aspect x

/-- A change keeps a property of what it is made to. -/
def Keeps (c : Change α) (P : α → Prop) : Prop := ∀ x, P x → P (c x).1

theorem always_stops (f : α → α) : (always f).Stops none := fun _ ↦ rfl

theorem all_nil_stops : (all [] : Change α).Stops none := fun _ ↦ rfl

/-- A sequence of changes stops for the first reason that there is. -/
theorem Stops.andThen {c d : Change α} {a b : Option Failure} (hc : c.Stops a) (hd : d.Stops b) :
    (andThen c d).Stops (a.or b) := by
  intro x
  have hfirst := hc x
  rcases hx : c x with ⟨y, _ | e⟩
  · rw [hx] at hfirst
    simp only [Change.andThen, hx, ← hfirst, Option.none_or]
    exact hd y
  · rw [hx] at hfirst
    simp only [Change.andThen, hx, ← hfirst, Option.some_or]

theorem Stops.all_cons {c : Change α} {cs : List (Change α)} {a b : Option Failure}
    (hc : c.Stops a) (hcs : (all cs).Stops b) : (all (c :: cs)).Stops (a.or b) :=
  hc.andThen hcs

theorem Stops.when {c : Change α} {a : Option Failure} (hc : c.Stops a) (condition : Bool) :
    (when condition c).Stops (if condition then a else none) := by
  intro x
  cases condition
  · rfl
  · exact hc x

theorem Leaves.all_cons {c : Change α} {cs : List (Change α)} {aspect : α → β}
    (hc : c.Leaves aspect) (hcs : (all cs).Leaves aspect) : (all (c :: cs)).Leaves aspect := by
  intro x
  rcases hx : c x with ⟨y, _ | e⟩
  · have hy := hc x
    rw [hx] at hy
    simp only [Change.all_cons, Change.andThen, hx]
    exact (hcs y).trans hy
  · have hy := hc x
    rw [hx] at hy
    simpa only [Change.all_cons, Change.andThen, hx] using hy

theorem all_nil_leaves {aspect : α → β} : (all [] : Change α).Leaves aspect := fun _ ↦ rfl

theorem Keeps.all_cons {c : Change α} {cs : List (Change α)} {P : α → Prop} (hc : c.Keeps P)
    (hcs : (all cs).Keeps P) : (all (c :: cs)).Keeps P := by
  intro x hx
  have hfirst := hc x hx
  rcases hstep : c x with ⟨y, _ | e⟩ <;>
    simp only [hstep] at hfirst <;>
    simp only [Change.all_cons, Change.andThen, hstep]
  · exact hcs y hfirst
  · exact hfirst

theorem all_nil_keeps {P : α → Prop} : (all [] : Change α).Keeps P := fun _ hx ↦ hx

theorem Leaves.when {c : Change α} {aspect : α → β} (hc : c.Leaves aspect) (condition : Bool) :
    (when condition c).Leaves aspect := by
  intro x
  cases condition
  · rfl
  · exact hc x

end Change

/-! ### The content of a run from text -/

/-- XML can hold the pieces of a text exactly if it can hold the text. -/
theorem all_isCompatibleItem_itemsFrom (pending cs : List Char) :
    (Run.itemsFrom pending cs).all Run.isCompatibleItem =
      (isCompatible pending && isCompatible cs) := by
  have hflush (ds : List Char) :
      (Run.itemsFrom.flush ds).all Run.isCompatibleItem = isCompatible ds := by
    cases ds with
    | nil => rfl
    | cons d ds =>
      simp [Run.itemsFrom.flush, Run.textItem, Run.isCompatibleItem, isCompatibleText,
        isCompatible, Bool.and_comm]
  induction cs generalizing pending with
  | nil => simp [Run.itemsFrom, hflush, isCompatible]
  | cons c cs ih =>
    rw [Run.itemsFrom]
    split
    · next htab =>
      have hc : isCompatibleChar c = true := by rw [htab]; decide
      simp [hflush, ih, Run.isCompatibleItem, isCompatible, hc]
    · split
      · next hline =>
        have hc : isCompatibleChar c = true := by
          rcases (by simpa using hline : c = '\n' ∨ c = '\r') with rfl | rfl <;> decide
        simp [hflush, ih, Run.isCompatibleItem, isCompatible, hc]
      · rw [ih]
        simp [isCompatible, Bool.and_comm, Bool.and_left_comm]

/-- XML can hold the pieces of a text exactly if it can hold the text. -/
theorem all_isCompatibleItem_itemsOf (s : String) :
    (Run.itemsOf s).all Run.isCompatibleItem = isCompatibleText s := by
  rw [Run.itemsOf, all_isCompatibleItem_itemsFrom]
  simp [isCompatible, isCompatibleText]

/-- Writing a text into a run stops exactly if XML cannot hold the text. -/
theorem write_stops (s : String) : (Run.write s).Stops (textFailure? s) := by
  intro r
  have hall : ((Run.itemsOf s).takeWhile Run.isCompatibleItem).length = (Run.itemsOf s).length ↔
      isCompatibleText s = true := by
    rw [← all_isCompatibleItem_itemsOf, List.all_eq_true]
    constructor
    · intro hlength x hx
      rw [← (List.takeWhile_prefix (p := Run.isCompatibleItem)).eq_of_length hlength] at hx
      exact List.mem_takeWhile_imp hx
    · intro h
      rw [List.takeWhile_eq_self_iff.mpr h]
  simp only [Run.write, textFailure?, hall]

/-! ### Sound styles -/

namespace RunStyle

/-- A style whose colour and shading are six hexadecimal digits and whose size is that of a
heading, as far as it gives them. -/
structure Sound (style : RunStyle) : Prop where
  color : ∀ c, style.color = some c → isHexColor c = true
  shade : ∀ c, style.shade = some c → isHexColor c = true
  size : ∀ n, style.size = some n → ∃ level, n = headingSize level

theorem innerText_eq_some {outer inner : Option String} {c : String}
    (h : innerText outer inner = some c) : outer = some c ∨ inner = some c := by
  unfold innerText at h
  split at h
  · split at h
    · exact .inl h
    · exact .inr h
  · exact .inl h

theorem innerSize_eq_some {outer inner : Option Int} {n : Int}
    (h : innerSize outer inner = some n) : outer = some n ∨ inner = some n := by
  unfold innerSize at h
  split at h
  · split at h
    · exact .inl h
    · exact .inr h
  · exact .inl h

/-- A sound style within a sound style is sound. -/
theorem Sound.merge {outer inner : RunStyle} (houter : outer.Sound) (hinner : inner.Sound) :
    (outer.merge inner).Sound where
  color c hc := (innerText_eq_some hc).elim (houter.color c) (hinner.color c)
  shade c hc := (innerText_eq_some hc).elim (houter.shade c) (hinner.shade c)
  size n hn := (innerSize_eq_some hn).elim (houter.size n) (hinner.size n)

theorem sound_plain : plain.Sound := ⟨by simp [plain], by simp [plain], by simp [plain]⟩

theorem sound_ofEmphasis (n : Int) : (ofEmphasis n).Sound :=
  ⟨by simp [ofEmphasis], by simp [ofEmphasis], by simp [ofEmphasis]⟩

theorem sound_ofHeading (level : Int) : (ofHeading level).Sound :=
  ⟨by simp [ofHeading], by simp [ofHeading], fun n hn ↦ ⟨level, (Option.some.inj hn).symm⟩⟩

theorem sound_ofHeader : ofHeader.Sound :=
  ⟨by simp [ofHeader], by simp [ofHeader], by simp [ofHeader]⟩

theorem sound_ofCodeLine : ofCodeLine.Sound :=
  ⟨by simp [ofCodeLine], by simp [ofCodeLine], by simp [ofCodeLine]⟩

section Accepted

variable {settings : Settings} (haccepted : settings.Accepted)

include haccepted

theorem sound_ofCode : (ofCode settings).Sound :=
  ⟨fun c hc ↦ by rw [← Option.some.inj hc]; exact haccepted.isHexColor .code,
    fun c hc ↦ by rw [← Option.some.inj hc]; exact haccepted.isHexColor .codeShade,
    by simp [ofCode]⟩

theorem sound_ofLink : (ofLink settings).Sound :=
  ⟨fun c hc ↦ by rw [← Option.some.inj hc]; exact haccepted.isHexColor .link,
    by simp [ofLink], by simp [ofLink]⟩

theorem sound_ofCaption : (ofCaption settings).Sound :=
  ⟨fun c hc ↦ by rw [← Option.some.inj hc]; exact haccepted.isHexColor .caption,
    by simp [ofCaption], by simp [ofCaption]⟩

end Accepted

/-! ### Applying a style -/

/-- The reason why the font of a style cannot be set: XML cannot hold it. -/
def fontFailure? (style : RunStyle) (codeFont : String) : Option Failure :=
  if style.monospace then textFailure? codeFont else none

/-- The reason why a text cannot be set as a colour, if it is none. -/
def colorFailure? (color : String) : Option Failure :=
  match readColor color with
  | .ok _ => none
  | .error e => some e

/-- The reason why a size cannot be set, if it is none that a run can have. -/
def sizeFailure? (size : Int) : Option Failure :=
  match Run.sizeLength size with
  | .error e => some e
  | .ok emu =>
    if 0 ≤ emu && emu ≤ Run.maxSize then none else some (.lengthOutOfRange 0 Run.maxSize emu)

/-- The reason why a text that is given and not empty cannot be set, if it cannot. -/
def givenFailure? (failure? : String → Option Failure) (text : Option String) : Option Failure :=
  (text.filter (!·.isEmpty)).bind failure?

/-- The reason why a size that is given and not zero cannot be set, if it cannot. -/
def givenSizeFailure? (size : Option Int) : Option Failure :=
  (size.filter (· ≠ 0)).bind sizeFailure?

/-- The reason why a style cannot be applied, if it cannot. -/
def failure? (style : RunStyle) (codeFont : String) : Option Failure :=
  (style.fontFailure? codeFont).or ((givenFailure? colorFailure? style.color).or
    ((givenSizeFailure? style.size).or (givenFailure? textFailure? style.shade)))

theorem setFont_stops (name : String) : (Run.setFont name).Stops (textFailure? name) := by
  intro r
  unfold Run.setFont
  split <;> simp [*]

theorem setColor_stops (color : String) : (Run.setColor color).Stops (colorFailure? color) := by
  intro r
  unfold Run.setColor colorFailure?
  rcases readColor color with e | hex <;> rfl

theorem addShade_stops (fill : String) : (Run.addShade fill).Stops (textFailure? fill) := by
  intro r
  unfold Run.addShade
  split <;> simp [*]

theorem setSize_stops (size : Int) : (Run.setSize size).Stops (sizeFailure? size) := by
  intro r
  unfold Run.setSize sizeFailure?
  rcases Run.sizeLength size with e | emu
  · rfl
  · by_cases hrange : (decide (0 ≤ emu) && decide (emu ≤ Run.maxSize)) = true <;> simp [hrange]

theorem ifGiven_stops {change : String → Change Run} {why : String → Option Failure}
    (h : ∀ s, (change s).Stops (why s)) (text : Option String) :
    (apply.ifGiven text change).Stops (givenFailure? why text) := by
  cases text with
  | none => exact fun _ ↦ rfl
  | some s =>
    have hwhen := (h s).when (!s.isEmpty)
    have hwhy : givenFailure? why (some s) = if !s.isEmpty then why s else none := by
      cases hs : s.isEmpty <;> simp [givenFailure?, Option.filter, hs]
    rwa [← hwhy] at hwhen

theorem sizeChange_stops (size : Option Int) :
    (apply.sizeChange size).Stops (givenSizeFailure? size) := by
  cases size with
  | none => exact fun _ ↦ rfl
  | some n =>
    have hwhen := (setSize_stops n).when (n ≠ 0)
    have hwhy : givenSizeFailure? (some n) =
        if decide (n ≠ 0) = true then sizeFailure? n else none := by
      by_cases hn : n = 0 <;> simp [givenSizeFailure?, Option.filter, hn]
    rwa [← hwhy] at hwhen

/-- Applying a style stops at the first of its parts that cannot be set. -/
theorem apply_stops (style : RunStyle) (codeFont : String) :
    (style.apply codeFont).Stops (style.failure? codeFont) := by
  have hall := (Change.always_stops (Run.editProperties (RunProperty.bold style.bold).put)).all_cons
    ((Change.always_stops (Run.editProperties (RunProperty.italic style.italic).put)).all_cons
    (((Change.always_stops (Run.editProperties RunProperty.underline.put)).when
      style.underline).all_cons
    (((setFont_stops codeFont).when style.monospace).all_cons
    ((ifGiven_stops setColor_stops style.color).all_cons
    ((sizeChange_stops style.size).all_cons
    ((ifGiven_stops addShade_stops style.shade).all_cons Change.all_nil_stops))))))
  simpa [failure?, fontFailure?, RunStyle.apply] using hall

/-! ### Applying a sound style -/

/-- The sizes that headings have. -/
def headingSizes : List Int := [32, 28, 24, 22, 20, 18]

theorem headingSize_mem (level : Int) : headingSize level ∈ headingSizes := by
  unfold headingSize headingSizes
  grind

/-- The sizes of headings are lengths that a run can have. -/
theorem sizeFailure?_headingSize (level : Int) : sizeFailure? (headingSize level) = none := by
  have hsizes : ∀ n ∈ headingSizes, sizeFailure? n = none := by decide +kernel
  exact hsizes _ (headingSize_mem level)

/-- A sound style cannot be applied for no reason but a font that XML cannot hold. -/
theorem Sound.failure?_eq {style : RunStyle} (h : style.Sound) (codeFont : String) :
    style.failure? codeFont = style.fontFailure? codeFont := by
  have hgiven {text : Option String} {why : String → Option Failure}
      (hwhy : ∀ s, text = some s → why s = none) : givenFailure? why text = none := by
    rw [givenFailure?, Option.bind_eq_none_iff]
    exact fun s hs ↦ hwhy s (Option.filter_eq_some_iff.mp hs).1
  have hcolor : givenFailure? colorFailure? style.color = none := hgiven fun s hs ↦ by
    rw [colorFailure?, readColor_of_isHexColor (h.color s hs)]
  have hshade : givenFailure? textFailure? style.shade = none := hgiven fun s hs ↦ by
    rw [textFailure?, if_pos (isCompatibleText_of_isHexColor (h.shade s hs))]
  have hsize : givenSizeFailure? style.size = none := by
    rw [givenSizeFailure?, Option.bind_eq_none_iff]
    intro n hn
    obtain ⟨level, rfl⟩ := h.size n (Option.filter_eq_some_iff.mp hn).1
    exact sizeFailure?_headingSize level
  rw [failure?, hcolor, hsize, hshade, Option.or_none, Option.or_none, Option.or_none]

/-- Applying a sound style stops only at a font that XML cannot hold. -/
theorem Sound.apply_stops {style : RunStyle} (h : style.Sound) (codeFont : String) :
    (style.apply codeFont).Stops (style.fontFailure? codeFont) := by
  have hstops := RunStyle.apply_stops style codeFont
  rwa [h.failure?_eq] at hstops

/-! ### The content of a styled run -/

/-- Applying a style changes nothing of the content of a run. -/
theorem apply_leaves (style : RunStyle) (codeFont : String) :
    (style.apply codeFont).Leaves Run.items := by
  have hedit (f : List RunProperty → List RunProperty) :
      (Change.always (Run.editProperties f)).Leaves Run.items := fun _ ↦ rfl
  have hfont : (Run.setFont codeFont).Leaves Run.items := by
    intro r
    unfold Run.setFont
    split <;> rfl
  have hcolor (s : String) : (Run.setColor s).Leaves Run.items := by
    intro r
    unfold Run.setColor
    split <;> rfl
  have hshade (s : String) : (Run.addShade s).Leaves Run.items := by
    intro r
    unfold Run.addShade
    split <;> rfl
  have hsetSize (n : Int) : (Run.setSize n).Leaves Run.items := by
    intro r
    unfold Run.setSize
    split
    · rfl
    · split <;> rfl
  have hgiven (text : Option String) (change : String → Change Run)
      (hchange : ∀ s, (change s).Leaves Run.items) :
      (apply.ifGiven text change).Leaves Run.items := by
    cases text with
    | none => exact fun _ ↦ rfl
    | some s => exact (hchange s).when (!s.isEmpty)
  have hsize : (apply.sizeChange style.size).Leaves Run.items := by
    cases style.size with
    | none => exact fun _ ↦ rfl
    | some n => exact (hsetSize n).when (n ≠ 0)
  exact (hedit _).all_cons ((hedit _).all_cons (((hedit _).when _).all_cons ((hfont.when _).all_cons
    ((hgiven _ _ hcolor).all_cons (hsize.all_cons ((hgiven _ _ hshade).all_cons
      Change.all_nil_leaves))))))

end RunStyle

/-! ### Runs with text and captions -/

/-- Keeping blanks changes nothing that does not depend on which texts keep theirs. -/
theorem keepingSpace_leaves {β : Type} {f : RunItem → β}
    (hf : ∀ value keeps, f (.text value true) = f (.text value keeps)) :
    (Change.always Run.keepingSpace).Leaves fun r ↦ r.items.map f := by
  intro r
  simp only [Change.always, Run.keepingSpace, List.map_map]
  refine List.map_congr_left fun x _ ↦ ?_
  cases x with
  | text value keeps => exact hf value keeps
  | _ => rfl

/-- Writing a text stops at a text that XML cannot hold, or at a style that cannot be applied. -/
theorem textRun_stops_style (settings : Settings) (text : String) (style : RunStyle) :
    (textRun settings text style).Stops
      ((textFailure? text).or (style.failure? settings.codeFont)) := by
  simpa [textRun] using (write_stops text).all_cons
    ((style.apply_stops settings.codeFont).all_cons
      ((Change.always_stops Run.keepingSpace).all_cons Change.all_nil_stops))

/-- Writing a text in a sound style stops only at a text or a font that XML cannot hold. -/
theorem textRun_stops (settings : Settings) (text : String) {style : RunStyle}
    (h : style.Sound) : (textRun settings text style).Stops
      ((textFailure? text).or (style.fontFailure? settings.codeFont)) := by
  have hstops := textRun_stops_style settings text style
  rwa [h.failure?_eq] at hstops

/-- Writing a caption stops at a text that XML cannot hold, or at a style of captions within a style
that cannot be applied. -/
theorem captionRun_stops_style (settings : Settings) (alt : String) (style : RunStyle) :
    (captionRun settings alt style).Stops ((textFailure? (caption alt)).or
      ((style.merge (.ofCaption settings)).failure? settings.codeFont)) := by
  have hwrite : (Run.overwrite (caption alt)).Stops (textFailure? (caption alt)) :=
    fun r ↦ write_stops (caption alt) _
  simpa [captionRun] using hwrite.all_cons
    (((style.merge (.ofCaption settings)).apply_stops settings.codeFont).all_cons
      ((Change.always_stops Run.keepingSpace).all_cons Change.all_nil_stops))

/-- Writing a caption in a sound style stops only at a text or a font that XML cannot hold. -/
theorem captionRun_stops {settings : Settings} (haccepted : settings.Accepted) (alt : String)
    {style : RunStyle} (h : style.Sound) : (captionRun settings alt style).Stops
      ((textFailure? (caption alt)).or (style.fontFailure? settings.codeFont)) := by
  have hstops := captionRun_stops_style settings alt style
  have hstyle := h.merge (RunStyle.sound_ofCaption haccepted)
  have hfont : (style.merge (.ofCaption settings)).fontFailure? settings.codeFont =
      style.fontFailure? settings.codeFont := by
    simp [RunStyle.fontFailure?, RunStyle.merge, RunStyle.ofCaption]
  rwa [hstyle.failure?_eq, hfont] at hstops

end Folio
