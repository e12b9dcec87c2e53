import Folio.Proofs.Style
import Mathlib.Data.List.Basic

/-!
# The look of a run

The properties of a run that a style was applied to are in schema order, at most one of each kind
apart from shadings (`Look.properties`). A property that is put into such a sequence finds its place
between those of lower and those of higher rank (`put_between`), so each change of a look is the
change of one of its fields (`Change.Dresses`), and a style, once applied, gives a run the look made
of what it gives (`RunStyle.apply_dresses`). For a sound style that is exactly the look that it
describes (`RunStyle.Sound.apply_dresses`), and so it is for texts and captions in it.
-/

set_option autoImplicit false
set_option relaxedAutoImplicit false

namespace Folio

open Word

/-- How a run looks: its font, whether bold and italic are switched on or off, its colour, its size
in half points, whether it is underlined, and its shadings. -/
structure Look where
  font : Option String := none
  bold : Option Bool := none
  italic : Option Bool := none
  color : Option String := none
  size : Option Int := none
  underline : Bool := false
  shades : List String := []

namespace Look

/-- The properties of a rank of a run with a look. -/
def part (l : Look) : Nat → List RunProperty
  | 0 => (l.font.map fun name ↦ .fonts (some name)).toList
  | 1 => (l.bold.map .bold).toList
  | 2 => (l.italic.map .italic).toList
  | 3 => (l.color.map .color).toList
  | 4 => (l.size.map fun n ↦ .size (some n)).toList
  | 5 => if l.underline then [.underline] else []
  | 6 => l.shades.map .shade
  | _ => []

/-- The properties of a run with a look, rank by rank. -/
def properties (l : Look) : List RunProperty := (List.range 7).flatMap l.part

/-! ### Properties in their places -/

theorem rank_of_mem_part (l : Look) {k : Nat} {x : RunProperty} (h : x ∈ l.part k) :
    x.rank = k := by
  unfold part at h
  split at h
  · obtain ⟨name, -, rfl⟩ := Option.map_eq_some_iff.mp (Option.mem_toList.mp h)
    rfl
  · obtain ⟨on, -, rfl⟩ := Option.map_eq_some_iff.mp (Option.mem_toList.mp h)
    rfl
  · obtain ⟨on, -, rfl⟩ := Option.map_eq_some_iff.mp (Option.mem_toList.mp h)
    rfl
  · obtain ⟨hex, -, rfl⟩ := Option.map_eq_some_iff.mp (Option.mem_toList.mp h)
    rfl
  · obtain ⟨n, -, rfl⟩ := Option.map_eq_some_iff.mp (Option.mem_toList.mp h)
    rfl
  · obtain ⟨-, hx⟩ : _ ∧ x = .underline := by simpa using h
    rw [hx]
    rfl
  · obtain ⟨fill, -, rfl⟩ := List.mem_map.mp h
    rfl
  · cases h

/-- A property stands between those of lower and those of higher rank, and replaces the one of its
kind. -/
theorem put_between {x : RunProperty} {lower higher : List RunProperty} {own : Option RunProperty}
    (hlower : ∀ y ∈ lower, y.rank < x.rank) (hown : ∀ y ∈ own, y.rank = x.rank)
    (hhigher : ∀ y ∈ higher, x.rank < y.rank) :
    x.put (lower ++ own.toList ++ higher) = lower ++ x :: higher := by
  cases own with
  | none =>
    have hnone : (lower ++ higher).any (fun y ↦ decide (y.rank = x.rank)) = false := by
      simp only [List.any_append, Bool.or_eq_false_iff, List.any_eq_false, decide_eq_true_eq]
      exact ⟨fun y hy ↦ (hlower y hy).ne, fun y hy ↦ (hhigher y hy).ne'⟩
    rw [Option.toList_none, List.append_nil, RunProperty.put, putProperty, hnone]
    exact insertBefore_between x (fun y hy ↦ by simpa using (hlower y hy).le)
      fun y hy ↦ by simpa using hhigher y hy
  | some y =>
    have hy : y.rank = x.rank := hown y rfl
    have hsome : (lower ++ y :: higher).any (fun y ↦ decide (y.rank = x.rank)) = true := by
      simp [hy]
    rw [Option.toList_some, List.append_assoc, List.singleton_append, RunProperty.put,
      putProperty, hsome]
    exact replaceFirst_between x (fun z hz ↦ by simpa using (hlower z hz).ne) (by simpa using hy)
      higher

/-- The parts of lower rank, the part of a rank, and the parts of higher rank. -/
theorem properties_eq (l : Look) {k : Nat} (hk : k < 7) : l.properties =
    (List.range k).flatMap l.part ++ l.part k ++ (List.range' (k + 1) (6 - k)).flatMap l.part := by
  have hrange : List.range 7 = List.range k ++ k :: List.range' (k + 1) (6 - k) := by
    have happend : List.range' 0 k ++ List.range' (0 + k) (6 - k + 1) =
        List.range' 0 (k + (6 - k + 1)) := List.range'_append_1
    rw [Nat.zero_add, show k + (6 - k + 1) = 7 by omega] at happend
    rw [← List.range'_succ, List.range_eq_range', List.range_eq_range', happend]
  rw [properties, hrange, List.flatMap_append, List.flatMap_cons, List.append_assoc]

/-- A look with a property in place of what it has of its rank. -/
def set (l : Look) : RunProperty → Look
  | .fonts name => { l with font := name }
  | .bold on => { l with bold := some on }
  | .italic on => { l with italic := some on }
  | .color hex => { l with color := some hex }
  | .size halfPoints => { l with size := halfPoints }
  | .underline => { l with underline := true }
  | .shade fill => { l with shades := [fill] }

theorem set_part_of_ne (l : Look) {x : RunProperty} {k : Nat} (h : k ≠ x.rank) :
    (l.set x).part k = l.part k := by
  unfold part
  cases x <;> split <;> first | rfl | exact absurd rfl h

/-- A look has at most one property of each rank but the last. -/
theorem part_eq_toList (l : Look) {k : Nat} (h : k < 6) :
    ∃ own : Option RunProperty, l.part k = own.toList := by
  unfold part
  split
  case h_6 =>
    cases l.underline
    · exact ⟨none, rfl⟩
    · exact ⟨some .underline, rfl⟩
  case h_7 => omega
  case h_8 => exact ⟨none, rfl⟩
  all_goals exact ⟨_, rfl⟩

/-- A property that is put into a look replaces what it has of its rank. -/
theorem put_properties (l : Look) {x : RunProperty} (hx : x.rank < 6)
    (hpart : (l.set x).part x.rank = [x]) : x.put l.properties = (l.set x).properties := by
  obtain ⟨own, hown⟩ := l.part_eq_toList hx
  have hrank {ks : List Nat} {y : RunProperty} (hy : y ∈ ks.flatMap l.part) : y.rank ∈ ks := by
    obtain ⟨k, hk, hmem⟩ := List.mem_flatMap.mp hy
    rwa [l.rank_of_mem_part hmem]
  have hsame {ks : List Nat} (hks : x.rank ∉ ks) :
      ks.flatMap (l.set x).part = ks.flatMap l.part :=
    List.flatMap_congr fun k hk ↦ l.set_part_of_ne fun h ↦ hks (h ▸ hk)
  have hlt : x.rank < 7 := by omega
  rw [l.properties_eq hlt, (l.set x).properties_eq hlt, hown, hpart, hsame (by simp),
    hsame (by simp), put_between, List.append_assoc, List.singleton_append]
  · exact fun y hy ↦ List.mem_range.mp (hrank hy)
  · intro y hy
    refine l.rank_of_mem_part ?_
    rw [hown]
    exact Option.mem_toList.mpr hy
  · intro y hy
    obtain ⟨hle, -⟩ := List.mem_range'_1.mp (hrank hy)
    exact hle

/-- A shading that is added to a look stands behind those that there are. -/
theorem add_shade_properties (l : Look) (fill : String) :
    (RunProperty.shade fill).add l.properties =
      { l with shades := l.shades ++ [fill] }.properties := by
  have hlower : ∀ y ∈ l.properties, decide ((RunProperty.shade fill).rank < y.rank) = false := by
    intro y hy
    obtain ⟨k, hk, hmem⟩ := List.mem_flatMap.mp hy
    rw [l.rank_of_mem_part hmem]
    have hle : ¬6 < k := Nat.not_lt.mpr (Nat.le_of_lt_succ (List.mem_range.mp hk))
    exact decide_eq_false hle
  have hadd := insertBefore_between (RunProperty.shade fill) hlower (List.forall_mem_nil _)
  rw [List.append_nil] at hadd
  rw [RunProperty.add, hadd]
  simp [properties, List.range_succ, part]

end Look

/-! ### Changes of a look -/

/-- A change that succeeds on a run with a look gives it another look. -/
def Change.Dresses (c : Change Run) (f : Look → Look) : Prop :=
  ∀ r l, r.propertyList = l.properties → (c r).2 = none →
    (c r).1.propertyList = (f l).properties

namespace Change

theorem Dresses.all_cons {c : Change Run} {cs : List (Change Run)} {f g : Look → Look}
    (hc : c.Dresses f) (hcs : (all cs).Dresses g) : (all (c :: cs)).Dresses (g ∘ f) := by
  intro r l hr h
  have hfirst := hc r l hr
  rcases hstep : c r with ⟨q, _ | e⟩
  · simp only [Change.all_cons, Change.andThen, hstep] at hfirst h ⊢
    exact hcs q (f l) (hfirst trivial) h
  · simp [Change.andThen, hstep] at h

theorem all_nil_dresses : (all [] : Change Run).Dresses id := fun _ _ hr _ ↦ hr

theorem Dresses.when {c : Change Run} {f : Look → Look} (hc : c.Dresses f) (condition : Bool) :
    (when condition c).Dresses fun l ↦ if condition then f l else l := by
  intro r l hr h
  cases condition
  · exact hr
  · exact hc r l hr h

end Change

namespace RunStyle

/-- Putting a property in its place dresses a run in it. -/
theorem setProperty_dresses {x : RunProperty} (hx : x.rank < 6)
    (hpart : ∀ l : Look, (l.set x).part x.rank = [x]) :
    (Run.setProperty x).Dresses fun l ↦ l.set x := by
  intro r l hr _
  have hput := l.put_properties hx (hpart l)
  rw [← hr] at hput
  exact hput

theorem setFont_dresses (name : String) :
    (Run.setFont name).Dresses fun l ↦ { l with font := some name } := by
  intro r l hr h
  rcases hname : textFailure? name with _ | e
  · simp only [Run.setFont, hname]
    exact (setProperty_dresses (by simp [RunProperty.rank]) fun _ ↦ rfl :
      (Run.setProperty (.fonts (some name))).Dresses _) r l hr rfl
  · simp [Run.setFont, hname] at h

theorem setColor_dresses (color : String) :
    (Run.setColor color).Dresses fun l ↦ { l with color := (readColor color).toOption } := by
  intro r l hr h
  rcases hcolor : readColor color with e | hex
  · simp [Run.setColor, hcolor] at h
  · simp only [Run.setColor, hcolor]
    exact (setProperty_dresses (by simp [RunProperty.rank]) fun _ ↦ rfl :
      (Run.setProperty (.color hex)).Dresses _) r l hr rfl

theorem addShade_dresses (fill : String) :
    (Run.addShade fill).Dresses fun l ↦ { l with shades := l.shades ++ [fill] } := by
  intro r l hr h
  rcases hfill : textFailure? fill with _ | e
  · simp only [Run.addShade, hfill]
    rw [← l.add_shade_properties, ← hr]
    rfl
  · simp [Run.addShade, hfill] at h

/-- The half points that a size is set to, if it is one. -/
def setHalfPoints? (size : Int) : Option Int :=
  (Run.sizeLength size).toOption.map Run.halfPointsOf

theorem setSize_dresses (size : Int) :
    (Run.setSize size).Dresses fun l ↦ { l with size := setHalfPoints? size } := by
  intro r l hr h
  unfold Run.setSize at h ⊢
  rcases hlength : Run.sizeLength size with e | emu
  · simp [hlength] at h
  · simp only [hlength] at h ⊢
    split at h
    · next hrange =>
      rw [if_pos hrange]
      simp only [setHalfPoints?, hlength]
      exact (setProperty_dresses (by simp [RunProperty.rank]) fun _ ↦ rfl :
        (Run.setProperty (.size (some (Run.halfPointsOf emu)))).Dresses _) r l hr rfl
    · cases h

/-- The look that a style gives where code has a font: what it gives that cannot be set is left
out. -/
def givenLook (style : RunStyle) (codeFont : String) : Look where
  font := if style.monospace then some codeFont else none
  bold := some style.bold
  italic := some style.italic
  color := (style.color.filter (!·.isEmpty)).bind fun c ↦ (readColor c).toOption
  size := (style.size.filter (· ≠ 0)).bind setHalfPoints?
  underline := style.underline
  shades := (style.shade.filter (!·.isEmpty)).toList

theorem ifGiven_dresses {change : String → Change Run} {f : String → Look → Look}
    (h : ∀ s, (change s).Dresses (f s)) (text : Option String) :
    (apply.ifGiven text change).Dresses
      fun l ↦ (text.filter (!·.isEmpty)).elim l fun s ↦ f s l := by
  cases text with
  | none => exact fun _ _ hr _ ↦ hr
  | some s =>
    have hwhen := (h s).when (!s.isEmpty)
    cases hs : s.isEmpty <;> simpa [apply.ifGiven, Option.filter, hs] using hwhen

theorem sizeChange_dresses (size : Option Int) :
    (apply.sizeChange size).Dresses
      fun l ↦ (size.filter (· ≠ 0)).elim l fun n ↦ { l with size := setHalfPoints? n } := by
  cases size with
  | none => exact fun _ _ hr _ ↦ hr
  | some n =>
    have hwhen := (setSize_dresses n).when (n ≠ 0)
    by_cases hn : n = 0 <;> simpa [apply.sizeChange, Option.filter, hn] using hwhen

/-- A style that can be applied to a run without properties gives it its look. -/
theorem apply_dresses (style : RunStyle) (codeFont : String) {r : Run} (hr : r.propertyList = [])
    (hok : (style.apply codeFont r).2 = none) :
    (style.apply codeFont r).1.propertyList = (style.givenLook codeFont).properties := by
  have hbold : (Run.setProperty (.bold style.bold)).Dresses _ :=
    setProperty_dresses (by simp [RunProperty.rank]) fun _ ↦ rfl
  have hitalic : (Run.setProperty (.italic style.italic)).Dresses _ :=
    setProperty_dresses (by simp [RunProperty.rank]) fun _ ↦ rfl
  have hunderline : (Run.setProperty .underline).Dresses _ :=
    setProperty_dresses (by decide) fun _ ↦ rfl
  have hall := hbold.all_cons (hitalic.all_cons ((hunderline.when style.underline).all_cons
    (((setFont_dresses codeFont).when style.monospace).all_cons
    ((ifGiven_dresses setColor_dresses style.color).all_cons
    ((sizeChange_dresses style.size).all_cons
    ((ifGiven_dresses addShade_dresses style.shade).all_cons Change.all_nil_dresses))))))
  have hdressed := hall r {} (by rw [hr]; rfl) hok
  refine hdressed.trans (congrArg Look.properties ?_)
  -- Each change is one of another field, so what is given may be told field by field.
  have hcolor (color : Option String) (l : Look) :
      (color.elim l fun c ↦ { l with color := (readColor c).toOption }) =
        { l with color := color.elim l.color fun c ↦ (readColor c).toOption } := by
    cases color <;> rfl
  have hsize (size : Option Int) (l : Look) :
      (size.elim l fun n ↦ { l with size := setHalfPoints? n }) =
        { l with size := size.elim l.size setHalfPoints? } := by
    cases size <;> rfl
  have hshade (shade : Option String) (l : Look) :
      (shade.elim l fun s ↦ { l with shades := l.shades ++ [s] }) =
        { l with shades := l.shades ++ shade.toList } := by
    cases shade
    · simp
    · rfl
  have hbind {α β : Type} (o : Option α) (f : α → Option β) : o.elim none f = o.bind f := by
    cases o <;> rfl
  simp only [Function.comp, id, hcolor, hsize, hshade, givenLook]
  cases style.underline <;> cases style.monospace <;> simp [Look.set, hbind]

/-- The look that a style describes, where code has a font. -/
def look (style : RunStyle) (codeFont : String) : Look where
  font := if style.monospace then some codeFont else none
  bold := some style.bold
  italic := some style.italic
  color := style.color.map String.toUpper
  size := style.size
  underline := style.underline
  shades := style.shade.toList

/-- The size of a heading is set to as many half points. -/
theorem setHalfPoints?_headingSize (level : Int) :
    setHalfPoints? (headingSize level) = some (headingSize level) := by
  have hsizes : ∀ n ∈ headingSizes, setHalfPoints? n = some n := by decide +kernel
  exact hsizes _ (headingSize_mem level)

/-- A sound style gives the look that it describes. -/
theorem Sound.givenLook_eq {style : RunStyle} (h : style.Sound) (codeFont : String) :
    style.givenLook codeFont = style.look codeFont := by
  have hgiven {text : Option String} (htext : ∀ s, text = some s → isHexColor s = true) :
      text.filter (!·.isEmpty) = text := by
    rcases text with _ | s
    · rfl
    · simp [Option.filter, isEmpty_of_isHexColor (htext s rfl)]
  have hcolor : style.color.bind (fun c ↦ (readColor c).toOption) =
      style.color.map String.toUpper := by
    rcases hc : style.color with _ | c
    · rfl
    · simp [readColor_of_isHexColor (h.color c hc), Except.toOption]
  have hsize : (style.size.filter (· ≠ 0)).bind setHalfPoints? = style.size := by
    rcases hn : style.size with _ | n
    · rfl
    · obtain ⟨level, rfl⟩ := h.size n hn
      have hne : headingSize level ≠ 0 :=
        ne_of_mem_of_not_mem (headingSize_mem level) (by decide)
      simp [Option.filter, hne, setHalfPoints?_headingSize]
  rw [givenLook, look, hgiven h.color, hgiven h.shade, hcolor, hsize]

/-- A sound style that is applied to a run without properties gives it the look that it
describes. -/
theorem Sound.apply_dresses {style : RunStyle} (h : style.Sound) (codeFont : String) {r : Run}
    (hr : r.propertyList = []) (hok : (style.apply codeFont r).2 = none) :
    (style.apply codeFont r).1.propertyList = (style.look codeFont).properties := by
  rw [← h.givenLook_eq]
  exact RunStyle.apply_dresses style codeFont hr hok

end RunStyle

/-! ### Runs with text and captions -/

/-- Writing a text leaves the properties of a run. -/
theorem write_leaves_properties (text : String) : (Run.write text).Leaves Run.properties :=
  fun _ ↦ rfl

/-- A run that is made from a text and a style has the look that the style gives. -/
theorem look_of_all {content : Change Run} (hcontent : content.Leaves Run.properties)
    (style : RunStyle) (codeFont : String)
    (hok : (Change.all [content, style.apply codeFont, .always Run.keepingSpace] Run.empty).2 =
      none) :
    (Change.all [content, style.apply codeFont, .always Run.keepingSpace]
      Run.empty).1.propertyList = (style.givenLook codeFont).properties := by
  have hempty : (content Run.empty).1.propertyList = [] :=
    congrArg (Option.getD · []) (hcontent Run.empty)
  simp only [Change.all_cons, Change.andThen] at hok ⊢
  rcases hwritten : content Run.empty with ⟨q, _ | e⟩
  · rw [hwritten] at hempty hok
    have hstyled := style.apply_dresses codeFont hempty
    rcases happlied : style.apply codeFont q with ⟨p, _ | e⟩
    · rw [happlied] at hstyled
      simp only [happlied, Change.always_apply, Change.all_nil]
      exact hstyled rfl
    · simp [happlied] at hok
  · simp [hwritten] at hok

/-- A run with a text has the look that its style gives. -/
theorem textRun_givenLook {settings : Settings} {text : String} {style : RunStyle}
    (hok : (textRun settings text style Run.empty).2 = none) :
    (textRun settings text style Run.empty).1.propertyList =
      (style.givenLook settings.codeFont).properties :=
  look_of_all (write_leaves_properties text) style settings.codeFont hok

/-- A run with a text in a sound style has the look of the style. -/
theorem textRun_look {settings : Settings} {text : String} {style : RunStyle}
    (hstyle : style.Sound) (hok : (textRun settings text style Run.empty).2 = none) :
    (textRun settings text style Run.empty).1.propertyList =
      (style.look settings.codeFont).properties := by
  rw [← hstyle.givenLook_eq]
  exact textRun_givenLook hok

/-- A run with a caption has the look that the style of captions gives within its style. -/
theorem captionRun_givenLook {settings : Settings} {alt : String} {style : RunStyle}
    (hok : (captionRun settings alt style Run.empty).2 = none) :
    (captionRun settings alt style Run.empty).1.propertyList =
      ((style.merge (.ofCaption settings)).givenLook settings.codeFont).properties :=
  look_of_all (fun _ ↦ rfl) _ settings.codeFont hok

/-- A run with a caption in a sound style has the look of the style of captions within it. -/
theorem captionRun_look {settings : Settings} (haccepted : settings.Accepted) {alt : String}
    {style : RunStyle} (hstyle : style.Sound)
    (hok : (captionRun settings alt style Run.empty).2 = none) :
    (captionRun settings alt style Run.empty).1.propertyList =
      ((style.merge (.ofCaption settings)).look settings.codeFont).properties := by
  have hcaption := hstyle.merge (RunStyle.sound_ofCaption haccepted)
  rw [← hcaption.givenLook_eq]
  exact captionRun_givenLook hok

end Folio
