import Folio.Convert.Markdown
import Folio.Proofs.Embedding

/-!
# How conversions fail

Reading, creating the document and packaging it are stages of a conversion, and what goes wrong in
them is reported as the failure of a stage (`Failure.isConversion`). Writing the text in between is
not: whatever goes wrong there comes out as it is (`Passage.write_blamesNoStage`). Whether it goes
wrong can be told from the text and from what is known about its images in the end
(`Step.DecidedBy`), leaf by leaf: XML has to hold a text, and the code font if the text is code, and
an image has to be loadable, and drawable unless its caption can be written (`Leaf.isWritable`). So
conversions fail in no other way than by their stages exactly if each leaf can be written and no list
is nested too deep, whatever reads the texts (`failures_of_stages`), which a control character in a
line of code is enough to spoil (`failures_of_stages_control`).
-/

set_option autoImplicit false
set_option relaxedAutoImplicit false

namespace Folio

open Word

/-- Whether a failure is that of a stage of the conversion. -/
def Failure.isConversion : Failure → Bool
  | conversion _ _ => true
  | _ => false

/-! ### Failures of writing -/

/-- A step fails with no failure of a stage. -/
def Step.BlamesNoStage {ω α : Type} (step : Step ω α) : Prop :=
  ∀ s e, (step s).result = .error e → e.isConversion = false

namespace Step

variable {ω α β : Type}

theorem BlamesNoStage.bind {first : Step ω α} {next : α → Step ω β} (hfirst : first.BlamesNoStage)
    (hnext : ∀ a, (next a).BlamesNoStage) : (first.bind next).BlamesNoStage := by
  intro s e h
  rcases hresult : (first s).result with e' | a
  · rw [bind_of_error hresult] at h
    cases h
    exact hfirst s e hresult
  · rw [bind_of_ok hresult] at h
    exact hnext a _ e h

theorem blamesNoStage_done (a : α) : (done a : Step ω α).BlamesNoStage := fun _ _ h ↦ by cases h

theorem blamesNoStage_forEach {step : α → Step ω Unit} {as : List α}
    (h : ∀ a ∈ as, (step a).BlamesNoStage) : (forEach step as).BlamesNoStage := by
  induction as with
  | nil => exact blamesNoStage_done ()
  | cons a as ih =>
    exact (h a List.mem_cons_self).bind fun _ ↦ ih fun b hb ↦ h b (List.mem_cons_of_mem a hb)

end Step

theorem textFailure?_blamesNoStage {text : String} {e : Failure} (h : textFailure? text = some e) :
    e.isConversion = false := by
  unfold textFailure? at h
  split at h
  · cases h
  · rw [← Option.some.inj h]
    rfl

section Blame

variable {env : Surroundings} (haccepted : env.settings.Accepted)

/-- A text in a style fails only for its characters or those of the font. -/
theorem textRunFailure?_blamesNoStage {settings : Settings} {text : String} {style : RunStyle}
    {e : Failure} (h : textRunFailure? settings text style = some e) : e.isConversion = false := by
  rcases Option.or_eq_some_iff.mp h with htext | ⟨-, hfont⟩
  · exact textFailure?_blamesNoStage htext
  · unfold RunStyle.fontFailure? at hfont
    split at hfont
    · exact textFailure?_blamesNoStage hfont
    · cases hfont

theorem make_blamesNoStage {ω : Type} {start : ω} {change : Change ω} {why : Option Failure}
    (hstops : change.Stops why) (hwhy : ∀ e, why = some e → e.isConversion = false) :
    (Step.make start change).BlamesNoStage := by
  intro s e h
  have hstart := hstops start
  rcases hchange : change start with ⟨piece, _ | e'⟩
  · simp [Step.make, hchange] at h
  · simp only [Step.make, hchange] at h hstart
    cases h
    exact hwhy e hstart.symm

theorem Reply.fetched_blamesNoStage {url : String} {reply : Reply} {e : Failure}
    (h : reply.fetched url = .error e) : e.isConversion = false := by
  cases reply with
  | response status body contentType =>
    simp only [Reply.fetched] at h
    split at h
    · cases h
    · split at h <;> cases h
  | broken message =>
    cases h
    rfl
  | _ => cases h

theorem readLocalImage_blamesNoStage {tree : FileTree} {root : Option PurePath} {source : String}
    {e : Failure} (h : readLocalImage tree root source = .error e) : e.isConversion = false := by
  obtain ⟨folder, -, hplace⟩ := readLocalImage_eq_error_iff.mp h
  cases hplace <;> rfl

theorem loadAnew_blamesNoStage {url : String} {s : RenderState} {e : Failure}
    (h : (loadAnew env url s).2 = .error e) : e.isConversion = false := by
  unfold loadAnew at h
  split at h
  · next hremote =>
    split at h
    · cases h
      rfl
    · simp only [fetchImage, hremote, ↓reduceIte] at h
      exact Reply.fetched_blamesNoStage h
  · exact readLocalImage_blamesNoStage h

/-- Loading fails with no failure of a stage. -/
theorem loadImage_blamesNoStage {url : String} {s t : RenderState} {e : Failure}
    (h : loadImage env url s = (t, .error e)) : e.isConversion = false := by
  unfold loadImage at h
  split at h
  · cases h
  · rcases hload : loadAnew env url s with ⟨u, e' | fetched⟩
    · rw [hload] at h
      cases h
      exact loadAnew_blamesNoStage (by rw [hload])
    · rw [hload] at h
      cases h

theorem hangingIndent_blamesNoStage {level : Int} {q r : Paragraph} {e : Failure}
    (h : hangingIndent level q = (r, some e)) : e.isConversion = false := by
  unfold hangingIndent at h
  rcases hlevel : indentOfLevel level with e' | emu
  · rw [hlevel] at h
    cases h
    unfold indentOfLevel at hlevel
    split at hlevel
    · cases hlevel
      rfl
    · split at hlevel <;> cases hlevel
      rfl
  · simp only [hlevel] at h
    have hstops := (setLeftIndent_stops emu).all_cons
      ((setHanging_stops listHanging).all_cons Change.all_nil_stops) q
    simp only [h, Option.or_none] at hstops
    split at hstops
    · cases hstops
    · cases hstops
      rfl

include haccepted

theorem embedImage_blamesNoStage (attached : Bool) (url alt : String) {style : RunStyle}
    (hstyle : style.Sound) : (embedImage env attached url alt style).BlamesNoStage := by
  have hcaption {remark : String} {s : RenderState} {e : Failure}
      (h : (captionOutcome env alt style remark s).result = .error e) : e.isConversion = false := by
    have hstops := captionRun_stops haccepted alt hstyle Run.empty
    rcases hrun : captionRun env.settings alt style Run.empty with ⟨run, _ | e'⟩
    · simp [captionOutcome, hrun] at h
    · simp only [captionOutcome, hrun] at h hstops
      cases h
      exact textRunFailure?_blamesNoStage hstops.symm
  intro s e h
  rcases hdraw : drawLoaded env url s with ⟨t, e' | _ | d⟩
  · rw [embedImage_of_fault attached alt style hdraw] at h
    cases h
    exact loadImage_blamesNoStage (load_of_fault hdraw)
  · obtain ⟨remark, hembed⟩ := embedImage_of_captioned attached alt style hdraw
    rw [hembed] at h
    exact hcaption h
  · obtain ⟨log, hembed⟩ := embedImage_of_shown attached alt style hdraw
    rw [hembed] at h
    cases h

theorem Fragment.write_blamesNoStage {f : Fragment} (hf : f.Sound) (attached : Bool) :
    (f.write env attached).BlamesNoStage := by
  cases hf with
  | text content h =>
    exact make_blamesNoStage (textRun_stops env.settings content h.left)
      fun _ ↦ textRunFailure?_blamesNoStage
  | lineBreak => exact fun _ _ h ↦ by cases h
  | image url alt h =>
    rw [Fragment.write]
    split
    · exact make_blamesNoStage (captionRun_stops haccepted alt h.left)
        fun _ ↦ textRunFailure?_blamesNoStage
    · exact (embedImage_blamesNoStage haccepted attached url alt h.left).bind
        fun _ ↦ Step.blamesNoStage_done ()

/-- A segment fails as its fragments do: a hyperlink that cannot be built is no failure. -/
theorem Segment.write_blamesNoStage {x : Segment} (hx : x.Sound) :
    (x.write env).BlamesNoStage := by
  cases x with
  | fragment f => exact Fragment.write_blamesNoStage haccepted hx true
  | link url children style =>
    have hlabel : (writeLabel env true url children style).BlamesNoStage := by
      rw [writeLabel_eq]
      exact Step.blamesNoStage_forEach fun f hf ↦ Fragment.write_blamesNoStage haccepted
        (labelFragments_sound haccepted url children hx f hf) true
    refine Step.BlamesNoStage.bind (fun s e h ↦ ?_) fun built ↦ ?_
    · rcases writeHyperlink_cases env url (writeLabel env false url children
        (style.merge (.ofLink env.settings))) s with
        ⟨-, log, hlink⟩ | ⟨-, e', log, -, hlink⟩ | ⟨-, -, hlink⟩ <;>
      · rw [hlink] at h
        cases h
    · cases built
      · exact hlabel
      · exact Step.blamesNoStage_done ()

/-- Formatting a passage fails with no failure of a stage. -/
theorem Passage.format_blamesNoStage {p : Passage} {q r : Paragraph} {e : Failure}
    (h : p.format env.settings q = (r, some e)) : e.isConversion = false := by
  by_cases hlevel : p.level? = none
  · have hnone : (p.format env.settings q).2 = none :=
      (p.format_eq_none_iff haccepted q).mpr (by simp [hlevel])
    rw [h] at hnone
    cases hnone
  · cases p with
    | itemStart level mark content => exact hangingIndent_blamesNoStage h
    | _ => exact absurd rfl hlevel

/-- Writing a passage fails with no failure of a stage. -/
theorem Passage.write_blamesNoStage (p : Passage) : (p.write env).BlamesNoStage := by
  have hcontent := Step.blamesNoStage_forEach fun x hx ↦
    Segment.write_blamesNoStage haccepted (p.segments_sound haccepted x hx)
  intro s e h
  unfold Passage.write writeFormatted at h
  rcases hformat : p.format env.settings Paragraph.empty with ⟨q, _ | e'⟩
  · simp only [hformat] at h
    exact hcontent s e h
  · simp only [hformat] at h
    cases h
    exact Passage.format_blamesNoStage haccepted hformat

end Blame

/-! ### Leaves that can be written -/

/-- Whether a leaf can be written, by what is known about sources in a state: XML has to hold a text,
and the code font as well if the text is code; an image has to be loadable, and drawable unless XML
can hold its caption. -/
def Leaf.isWritable (env : Surroundings) (t : RenderState) (leaf : Leaf) : Bool :=
  match leaf.kind with
  | .text content => isCompatibleText content
  | .codeSpan content | .codeLine content =>
    isCompatibleText content && isCompatibleText env.settings.codeFont
  | .lineBreak => true
  | .image url alt =>
    if isBlankText url then isCompatibleText alt
    else isLoadable env url && ((drawnContent? env t url).isSome || isCompatibleText alt)

theorem textFailure?_eq_none_iff {text : String} :
    textFailure? text = none ↔ isCompatibleText text = true := by
  unfold textFailure?
  split <;> simp [*]

/-- A leaf can be written exactly if the fragment that it is can be. -/
theorem Leaf.isWritable_iff {env : Surroundings} {t : RenderState} (leaf : Leaf) :
    (leaf.fragment env.settings).IsWritable env t ↔ leaf.isWritable env t = true := by
  obtain ⟨path, kind⟩ := leaf
  have htext (text : String) (style : RunStyle) :
      textRunFailure? env.settings text style = none ↔ isCompatibleText text = true ∧
        (style.monospace = true → isCompatibleText env.settings.codeFont = true) := by
    rw [textRunFailure?, Option.or_eq_none_iff, textFailure?_eq_none_iff, RunStyle.fontFailure?]
    cases style.monospace <;> simp [textFailure?_eq_none_iff]
  have hpath : (pathStyle env.settings path).monospace = false := rfl
  cases kind with
  | image url alt =>
    rcases hurl : isBlankText url <;>
      simp [Leaf.fragment, Leaf.style, Fragment.IsWritable, Leaf.isWritable, htext, hpath, hurl,
        isCompatibleText_caption]
  | lineBreak => simp [Leaf.fragment, Fragment.IsWritable, Leaf.isWritable]
  | text content => simp [Leaf.fragment, Leaf.style, Fragment.IsWritable, Leaf.isWritable, htext,
      hpath]
  | _ => simp [Leaf.fragment, Leaf.style, Fragment.IsWritable, Leaf.isWritable, htext,
      RunStyle.merge, RunStyle.ofCode, RunStyle.ofCodeLine]

/-! ### What decides whether a text can be written -/

section Writable

variable {env : Surroundings} (henv : env.Steady)

include henv

/-- A segment is decided by its fragments. -/
theorem Segment.write_decidedBy {x : Segment} (hx : x.Sound) :
    (x.write env).DecidedBy env fun t ↦ ∀ f ∈ x.fragments env.settings, f.IsWritable env t := by
  cases x with
  | link url children style => exact writeLink_decidedBy henv url children hx
  | fragment f =>
    have hfragment := Fragment.write_decidedBy henv hx true
    exact ⟨hfragment.learns, fun s t hs himages ↦
      (hfragment.iff s t hs himages).trans List.forall_mem_singleton.symm⟩

/-- A passage is decided by its level and its leaves. -/
theorem Passage.write_decidedBy (p : Passage) :
    (p.write env).DecidedBy env fun t ↦
      (∀ level, p.level? = some level → isIndentable level = true) ∧
        ∀ leaf ∈ p.leaves, leaf.isWritable env t = true where
  learns := p.write_learns henv.answers
  iff := by
    intro s t hs himages
    have hsegments := Step.decidedBy_forEach fun x hx ↦
      Segment.write_decidedBy henv (p.segments_sound henv.accepted x hx)
    have hleaves : (∀ x ∈ p.segments env.settings, ∀ f ∈ x.fragments env.settings,
        f.IsWritable env t) ↔ ∀ leaf ∈ p.leaves, leaf.isWritable env t = true := by
      rw [← List.forall_mem_flatMap, p.segments_eq_leaves henv.accepted, List.forall_mem_map]
      exact forall₂_congr fun leaf _ ↦ leaf.isWritable_iff
    rw [← p.format_eq_none_iff henv.accepted Paragraph.empty, ← hleaves]
    unfold Passage.write writeFormatted at himages ⊢
    rcases hformat : p.format env.settings Paragraph.empty with ⟨q, _ | e⟩
    · simp only [hformat] at himages ⊢
      simpa using hsegments.iff s t hs himages
    · simp

end Writable

/-! ### Texts of one indented line -/

namespace Markdown

/-- The region of a text that is one line, indented like code. -/
def indentedLine (body : List Char) : Region :=
  { lines := #[⟨[' ', ' ', ' ', ' '], body, 4, 0, false⟩], limit := 1 }

/-- The block of a text that is one line, indented like code. -/
def indentedLeaf (body : List Char) : Leaf :=
  ⟨[{ kind := .indentedCode, content := String.ofList (body ++ ['\n']) }], 1⟩

section IndentedLine

variable {body : List Char}

theorem skipEmpty_indentedLine (h : body ≠ []) : (indentedLine body).skipEmpty 0 = 0 := by
  have hempty : ((indentedLine body).line 0).isEmpty = false := by
    rw [Line.isEmpty, List.isEmpty_eq_false_iff]
    exact h
  rw [Region.skipEmpty, hempty]
  rfl

theorem indented?_indentedLine : (indentedLine body).indented? 0 1 = some (indentedLeaf body) := by
  have hcode : (indentedLine body).isCode 0 = true := rfl
  have hend : (indentedLine body).codeEnd 1 1 1 = 1 := by
    rw [Region.codeEnd]
    rfl
  have hcontent : linesText (4 + (indentedLine body).margin) false
      ((indentedLine body).between 0 1) = body ++ [] := rfl
  rw [Region.indented?, if_pos hcode, hend]
  dsimp only
  rw [hcontent, List.append_nil]
  rfl

theorem block_indentedLine (h : 0 < mostNested) :
    (indentedLine body).block 0 h 0 1 = pure (indentedLeaf body) := by
  have htable : (indentedLine body).table? 0 1 = .ok none := rfl
  rw [Region.block, htable, indented?_indentedLine]
  rfl

theorem blocks_indentedLine (h : body ≠ []) :
    (indentedLine body).blocks 0 0 1 = pure (indentedLeaf body) := by
  have hinside : (indentedLine body).isOutside 0 = false := rfl
  have hbehind : (indentedLine body).behind 1 0 (indentedLeaf body).next = 1 := rfl
  rw [Region.blocks]
  simp [skipEmpty_indentedLine h, block_indentedLine, hinside, hbehind, mostNested]
  rfl

/-- A text of one line that is indented like code is a block of code. -/
theorem parse_indentedLine (h : body ≠ []) {text : String}
    (hlines : linesOf (normalizedText text.toList) = (indentedLine body).lines.toList) :
    parse text = .ok [.code (codeLines (String.ofList (body ++ ['\n'])))] := by
  have hblocks : blockTokens (normalizedText text.toList) = .ok ((indentedLeaf body).tokens, []) := by
    rw [blockTokens, hlines]
    simp only [Array.toArray_toList]
    show Except.map _ (((indentedLine body).blocks 0 0 1).run []) = _
    rw [blocks_indentedLine h]
    rfl
  rw [parse, tokens, hblocks]
  rfl

end IndentedLine
end Markdown

/-! ### Conversions -/

/-- Failing to read a text is the failure of a stage. -/
theorem isConversion_of_readBlocks {read : String → Reading} {env : Surroundings} {text : String}
    {e : Failure} (h : readBlocks read env text = .error e) : e.isConversion = true := by
  unfold readBlocks at h
  split at h <;> cases h <;> rfl

/-- What is parsed is what is read, if the parser does not break. -/
theorem readBlocks_of_parse {env : Surroundings} (henv : env.faults.parse = none) {text : String}
    {blocks : List Block} (h : Markdown.parse text = .ok blocks) :
    readBlocks readText env text = .ok blocks := by
  rw [readBlocks, readText, henv, h]
  rfl

/-- A conversion comes to what rendering its blocks comes to. -/
theorem convertWith_result {read : String → Reading} {env : Surroundings} {text : String}
    {blocks : List Block} (h : readBlocks read env text = .ok blocks) :
    (convertWith read env text).2 = (render env blocks).2 := by
  rw [convertWith, h]

/-- Rendering fails in no other way than by its stages exactly if each leaf can be written and no
list is nested too deep, or there cannot be a document at all. -/
theorem render_failures_of_stages {env : Surroundings} (henv : env.Steady) {blocks : List Block}
    {t : RenderState} (himages : (render env blocks).1.images <+: t.images) :
    (∀ e, (render env blocks).2 = .error e → e.isConversion = true) ↔
      (env.faults.create = none → nestingOf blocks ≤ 4697 ∧
        ∀ p ∈ passagesOf 1 blocks, ∀ leaf ∈ p.leaves, leaf.isWritable env t = true) := by
  have hflat : Step.Flattens Element.paragraphs 0 (writeBlocks env blocks)
      (writePassages env (passagesOf 1 blocks)) := writeBlocks_flattens env 0 blocks
  have hblame : (writePassages env (passagesOf 1 blocks)).BlamesNoStage :=
    Step.blamesNoStage_forEach fun p _ ↦ p.write_blamesNoStage henv.accepted
  have hdecided : (writePassages env (passagesOf 1 blocks)).DecidedBy env _ :=
    Step.decidedBy_forEach fun p _ ↦ p.write_decidedBy henv
  obtain ⟨hresult, hstate, -⟩ := hflat {} rfl
  have hwritten := hdecided.iff {} t (List.forall_mem_nil _)
  rw [← hresult, ← hstate] at hwritten
  rw [← isIndentable_passagesOf_iff, ← forall₂_and]
  unfold render build at himages ⊢
  rcases hcreate : env.faults.create with _ | message
  · rw [forall_prop_of_true rfl]
    rcases hblocks : (writeBlocks env blocks {}).result with e | ⟨⟩
    · simp only [hcreate, hblocks] at himages hwritten ⊢
      have hstage := hblame {} e (hresult.symm.trans hblocks)
      have hfail := (hwritten himages).not.mp (by simp)
      exact iff_of_false (fun h ↦ by simp [h e rfl] at hstage) hfail
    · simp only [hcreate, hblocks] at himages hwritten ⊢
      refine iff_of_true (fun e h ↦ ?_) ((hwritten ?_).mp trivial)
      · split at h
        · cases h
          rfl
        · cases h
      · split at himages <;> exact himages
  · simp [Failure.isConversion]

/-- In steady surroundings a conversion gives a document, or fails by one of its stages, for exactly
those texts of which each leaf can be written and no list is nested too deep. This is so whatever
reads the texts. -/
theorem failures_of_stages {env : Surroundings} (henv : env.Steady) (read : String → Reading)
    (text : String) :
    (∀ e, (convertWith read env text).2 = .error e → e.isConversion = true) ↔
      ∀ blocks, readBlocks read env text = .ok blocks → env.faults.create = none →
        nestingOf blocks ≤ 4697 ∧ ∀ p ∈ passagesOf 1 blocks, ∀ leaf ∈ p.leaves,
          leaf.isWritable env (convertWith read env text).1 = true := by
  unfold convertWith
  rcases hread : readBlocks read env text with e | blocks
  · simp [isConversion_of_readBlocks hread]
  · have hrender := @render_failures_of_stages env henv blocks
      (convertWith read env text).1 (by rw [convertWith, hread])
    rw [convertWith, hread] at hrender
    simpa using hrender

/-- Surroundings in which no document can be packaged. -/
def unsavable : Surroundings := { faults := { save := some "full" } }

theorem failures_of_stages_unsavable :
    unsavable.Steady ∧
      (convertMarkdown unsavable "    a").2 = .error (.conversion .packaging "full") ∧
      ∀ e, (convertMarkdown unsavable "    a").2 = .error e → e.isConversion = true := by
  have hsteady : unsavable.Steady := ⟨Settings.accepted_default, answers_notFound, fun _ ↦ rfl⟩
  have hparse : Markdown.parse "    a" = .ok [.code ["a"]] :=
    Markdown.parse_indentedLine (List.cons_ne_nil 'a' []) rfl
  have hread : readBlocks readText unsavable "    a" = .ok [.code ["a"]] :=
    readBlocks_of_parse rfl hparse
  refine ⟨hsteady, (convertWith_result hread).trans rfl,
    (failures_of_stages hsteady readText "    a").mpr fun blocks hblocks _ ↦ ?_⟩
  rw [hread] at hblocks
  cases hblocks
  exact ⟨by decide, by decide⟩

/-- A control character in a line of code makes a conversion fail in another way. -/
theorem failures_of_stages_control :
    ({} : Surroundings).Steady ∧ (convertMarkdown {} "    \x01").2 = .error .incompatibleText ∧
      Failure.incompatibleText.isConversion = false := by
  have hparse : Markdown.parse "    \x01" = .ok [.code ["\x01"]] :=
    Markdown.parse_indentedLine (List.cons_ne_nil '\x01' []) rfl
  have hread : readBlocks readText {} "    \x01" = .ok [.code ["\x01"]] :=
    readBlocks_of_parse rfl hparse
  exact ⟨⟨Settings.accepted_default, answers_notFound, fun _ ↦ rfl⟩,
    (convertWith_result hread).trans rfl, rfl⟩

end Folio
