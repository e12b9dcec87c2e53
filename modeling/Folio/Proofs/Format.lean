import Folio.Proofs.Markup
import Folio.Proofs.Totality

/-!
# Formats of paragraphs

Every paragraph of a document has the properties of the passage it is (`Passage.properties`), and no
others: what a passage puts into its paragraph is seen in no other paragraph, however deep lists and
quotes are nested. `formats_of_build` reads off a document which of its paragraphs have borders,
shadings, spacings and indentations, and which these are.
-/

set_option autoImplicit false
set_option relaxedAutoImplicit false

namespace Folio

open Word

/-! ### Properties of a paragraph -/

namespace Word

namespace ParagraphProperty

/-- The shading that a property is, if it is one. -/
def shade? : ParagraphProperty → Option String
  | shade fill => some fill
  | _ => none

/-- The spacing that a property is, if it is one. -/
def spacing? : ParagraphProperty → Option Spacing
  | spacing space => some space
  | _ => none

/-- The indentation that a property is, if it is one. -/
def indent? : ParagraphProperty → Option Indent
  | indent lengths => some lengths
  | _ => none

end ParagraphProperty

namespace Paragraph

/-- The borders of a paragraph on a side. -/
def bordersOn (side : String) (p : Paragraph) : List Border :=
  (p.propertyList.flatMap ParagraphProperty.borderList).filter (·.side = side)

/-- The shadings of a paragraph. -/
def shades (p : Paragraph) : List String := p.propertyList.filterMap ParagraphProperty.shade?

/-- The explicit spacings of a paragraph. -/
def spacings (p : Paragraph) : List Spacing := p.propertyList.filterMap ParagraphProperty.spacing?

/-- The indentations of a paragraph. -/
def indents (p : Paragraph) : List Indent := p.propertyList.filterMap ParagraphProperty.indent?

/-- The indentations of a paragraph on the left. -/
def leftIndents (p : Paragraph) : List Int := p.indents.filterMap (·.left)

end Paragraph

/-- A whole number of twips is not rounded. -/
theorem twips_mul (n : Int) : twips (n * 635) = n := Binary64.roundedDivide_mul n (by decide)

end Word

/-! ### Properties of a passage -/

/-- The properties that a passage gives its paragraph. -/
def Passage.properties (settings : Settings) : Passage → Option (List ParagraphProperty)
  | .itemStart level _ _ => some [.indent ⟨some (720 * level), some 360⟩]
  | .codeLine first last _ =>
    some [.shade settings.codeShade,
      .spacing ⟨some (if first then 120 else 0), some (if last then 120 else 0), true⟩]
  | .quoted _ => some [.borders [⟨"left", settings.ruleColor, 12, 4⟩], .indent ⟨some 720, none⟩]
  | .rule => some [.borders [⟨"bottom", settings.ruleColor, 6, 4⟩]]
  | _ => none

/-- The margins of the lines of a code block in twips. -/
theorem twips_codeMargin (outer : Bool) : twips (codeMargin outer) = if outer then 120 else 0 := by
  cases outer <;> decide

/-- A hanging indentation that can be set is 720 twips for each level, of which the first line hangs
out by 360. -/
theorem hangingIndent_properties {level : Int}
    (h : (hangingIndent level Paragraph.empty).2 = none) :
    (hangingIndent level Paragraph.empty).1.properties =
      some [.indent ⟨some (720 * level), some 360⟩] := by
  have hlevel := (isIndentable_iff level).mp ((hangingIndent_eq_none_iff level _).mp h)
  have hunits : indentOfLevel level = .ok (level * 457200) := indentOfLevel_of_lt (by omega)
  have hfits : -Paragraph.maxIndent - 1 ≤ level * 457200 ∧
      level * 457200 ≤ Paragraph.maxIndent := by
    unfold Paragraph.maxIndent
    omega
  have hleft : twips (level * 457200) = 720 * level := by
    rw [← twips_mul (720 * level)]
    congr 1
    ring
  have hhanging : twips listHanging = 360 := by decide
  simp [hangingIndent, hunits, Change.andThen, Paragraph.setLeftIndent, hfits,
    Paragraph.setHanging, Paragraph.editProperties, Paragraph.propertyList, Paragraph.empty,
    ParagraphProperty.put, putProperty, replaceFirst, ParagraphProperty.rank,
    ParagraphProperty.indentIn, hleft, hhanging]

/-- A passage that can be formatted has its properties. -/
theorem Passage.format_properties {settings : Settings} {p : Passage}
    (h : (p.format settings Paragraph.empty).2 = none) :
    (p.format settings Paragraph.empty).1.properties = p.properties settings := by
  cases p with
  | itemStart level mark content => exact hangingIndent_properties h
  | codeLine first last line =>
    rw [Passage.format] at h ⊢
    rcases hshade : textFailure? settings.codeShade with _ | e
    · simp [Change.andThen, Paragraph.addShade, hshade, Paragraph.setSpacing,
        Paragraph.editProperties, Paragraph.propertyList, Paragraph.empty, ParagraphProperty.add,
        ParagraphProperty.put, putProperty, ParagraphProperty.rank, insertBefore_cons,
        twips_codeMargin, Passage.properties]
    · simp [Change.andThen, Paragraph.addShade, hshade] at h
  | quoted content =>
    rw [Passage.format] at h ⊢
    rcases hcolor : textFailure? settings.ruleColor with _ | e
    · have hindent : twips quoteIndent = 720 := by decide
      have hfits : -Paragraph.maxIndent - 1 ≤ quoteIndent ∧ quoteIndent ≤ Paragraph.maxIndent := by
        decide
      simp [Change.andThen, Paragraph.addBorder, hcolor, Paragraph.setLeftIndent, hfits,
        Paragraph.editProperties, Paragraph.propertyList, Paragraph.empty,
        ParagraphProperty.bordersIn, ParagraphProperty.put, putProperty, ParagraphProperty.rank,
        insertBefore_cons, ParagraphProperty.indentIn, hindent, Passage.properties]
    · simp [Change.andThen, Paragraph.addBorder, hcolor] at h
  | rule =>
    rw [Passage.format] at h ⊢
    rcases hcolor : textFailure? settings.ruleColor with _ | e
    · simp [Paragraph.addBorder, hcolor, Paragraph.editProperties, Paragraph.propertyList,
        Paragraph.empty, ParagraphProperty.bordersIn, ParagraphProperty.put, putProperty,
        Passage.properties]
    · simp [Paragraph.addBorder, hcolor] at h
  | _ => rfl

/-- A passage that can be written becomes one paragraph, with its properties. -/
theorem Passage.write_properties {env : Surroundings} {p : Passage} {s : RenderState}
    (h : (p.write env s).result = .ok ()) :
    ∃ q : Paragraph, (p.write env s).written = [q] ∧ q.properties = p.properties env.settings := by
  have hformat := @Passage.format_properties env.settings p
  unfold Passage.write writeFormatted at h ⊢
  rcases hq : p.format env.settings Paragraph.empty with ⟨q, _ | e⟩
  · rw [hq] at hformat
    exact ⟨q.append _, rfl, hformat rfl⟩
  · simp [hq] at h

/-! ### What the properties say -/

/-- Whether a passage is a paragraph right in a quote. -/
def Passage.isQuoted : Passage → Bool
  | .quoted _ => true
  | _ => false

/-- Whether a passage is a horizontal rule. -/
def Passage.isRule : Passage → Bool
  | .rule => true
  | _ => false

/-- Whether a passage that is a line of code is the first one and the last one of its block. -/
def Passage.codeEnds? : Passage → Option (Bool × Bool)
  | .codeLine first last _ => some (first, last)
  | _ => none

/-- The format of a paragraph follows the kind of the passage that it is. -/
structure Passage.Formats (settings : Settings) (p : Passage) (q : Paragraph) : Prop where
  left : q.bordersOn "left" = if p.isQuoted then [⟨"left", settings.ruleColor, 12, 4⟩] else []
  bottom : q.bordersOn "bottom" = if p.isRule then [⟨"bottom", settings.ruleColor, 6, 4⟩] else []
  shades : q.shades = if p.codeEnds?.isSome then [settings.codeShade] else []
  spacings : q.spacings = p.codeEnds?.toList.map fun (first, last) ↦
    ⟨some (if first then 120 else 0), some (if last then 120 else 0), true⟩
  leftIndents : q.leftIndents =
    match p with
    | .itemStart level _ _ => [720 * level]
    | .quoted _ => [720]
    | _ => []

/-- A paragraph with the properties of a passage has its format. -/
theorem Passage.formats_of_properties {settings : Settings} {p : Passage} {q : Paragraph}
    (h : q.properties = p.properties settings) : p.Formats settings q := by
  constructor <;>
    cases p <;>
    simp [Paragraph.bordersOn, Paragraph.shades, Paragraph.spacings, Paragraph.leftIndents,
      Paragraph.indents, Paragraph.propertyList, h, Passage.properties,
      ParagraphProperty.borderList, ParagraphProperty.shade?, ParagraphProperty.spacing?,
      ParagraphProperty.indent?, List.filterMap_cons, Passage.isQuoted, Passage.isRule,
      Passage.codeEnds?]

/-! ### Documents -/

/-- The lines that a block of code is written as: at least one. -/
def emittedLines (lines : List String) : List String := if lines.isEmpty then [""] else lines

/-- The lines of a block of code, each with its place. -/
theorem codePassages_eq_mapIdx (first : Bool) (lines : List String) :
    codePassages first lines = lines.mapIdx fun i line ↦
      .codeLine (first && i = 0) (i + 1 = lines.length) line := by
  induction lines generalizing first with
  | nil => rfl
  | cons line rest ih =>
    rw [codePassages, ih, List.mapIdx_cons]
    simp [← List.isEmpty_iff]

/-- The paragraphs of a document have the formats of the passages of its text, one for one: borders
on the left right in quotes, borders at the bottom for rules, shadings and spacings for lines of
code, and indentations on the left for list items and right in quotes, and none of these elsewhere.
The first and the last of the lines of a block of code, wherever it stands, are told by their place
among them. -/
theorem formats_of_build {env : Surroundings} {blocks : List Block} {s : RenderState}
    {d : Document} (h : build env blocks = (s, .ok d)) :
    List.Forall₂ (Passage.Formats env.settings) (passagesOf 1 blocks) (paragraphsOf d.body) ∧
      ∀ level lines, (Block.code lines).passages level =
        (emittedLines lines).mapIdx fun i line ↦
          .codeLine (i = 0) (i + 1 = (emittedLines lines).length) line := by
  obtain ⟨hok, hwritten, -, -⟩ := written_of_build h
  constructor
  · rw [← hwritten]
    refine forall₂_writePassages_of_forall (fun p _ t hp ↦ ?_) hok
    obtain ⟨q, hq, hproperties⟩ := Passage.write_properties hp
    exact ⟨q, hq, Passage.formats_of_properties hproperties⟩
  · intro level lines
    rw [Block.passages, ← emittedLines, codePassages_eq_mapIdx]
    simp only [Bool.true_and]

/-- A quote in a list item, with a rule and a block of code. -/
def quotedRule : List Block :=
  [.list false [[.paragraph [.text "a"], .quote [.paragraph [.text "b"], .rule], .code ["c", "d"]]]]

theorem formats_of_build_quotedRule :
    ∃ s d, build {} quotedRule = (s, .ok d) ∧
      List.Forall₂ (Passage.Formats {}) (passagesOf 1 quotedRule) (paragraphsOf d.body) ∧
      (paragraphsOf d.body).map Paragraph.leftIndents = [[720], [720], [], [], []] := by
  have hread : (build {} quotedRule).2.toOption.map
      (fun d ↦ (paragraphsOf d.body).map Paragraph.leftIndents) =
        some [[720], [720], [], [], []] := by decide +kernel
  obtain ⟨s, d, hbuild, hindents⟩ := exists_build_of_map hread
  exact ⟨s, d, hbuild, (formats_of_build hbuild).1, hindents⟩

end Folio
