import Folio.Proofs.Clean
import Folio.Proofs.Indentation

/-!
# When a document can be built

In surroundings that raise no obstacle of their own, a clean text becomes a document unless a list
item is indented too far, or the path of an image cannot be resolved (`build_clean_iff`): a list
item can be indented up to level 4697 (`isIndentable_iff`), and a path cannot be resolved if it starts
at an asset root with a NUL character, or if links on its way lead in a circle (`FileTree.Reaches`).
What is not obtained from the network or the registry leads to a caption or to a link without a
target, never to a failure.
-/

set_option autoImplicit false
set_option relaxedAutoImplicit false

namespace Folio

open Word

/-! ### Formats -/

theorem setHanging_stops (emu : Int) : (Paragraph.setHanging emu).Stops none :=
  Change.always_stops _

theorem setSpacing_stops (before after : Int) : (Paragraph.setSpacing before after).Stops none :=
  Change.always_stops _

/-- Setting an indentation stops exactly at one that is out of range. -/
theorem setLeftIndent_stops (emu : Int) : (Paragraph.setLeftIndent emu).Stops
    (if -Paragraph.maxIndent - 1 ≤ emu && emu ≤ Paragraph.maxIndent then none
      else some (.lengthOutOfRange (-Paragraph.maxIndent - 1) Paragraph.maxIndent emu)) := by
  intro p
  unfold Paragraph.setLeftIndent
  dsimp only
  split <;> rfl

/-- Adding a border stops exactly at a colour that XML cannot hold. -/
theorem addBorder_stops (side color : String) (size : Int) :
    (Paragraph.addBorder side color size).Stops (textFailure? color) := by
  intro p
  unfold Paragraph.addBorder
  dsimp only
  split <;> simp [*]

/-- Adding a shading to a paragraph stops exactly at one that XML cannot hold. -/
theorem addParagraphShade_stops (fill : String) :
    (Paragraph.addShade fill).Stops (textFailure? fill) := by
  intro p
  unfold Paragraph.addShade
  split <;> simp [*]

/-- A first paragraph of a list item can be formatted exactly if its level can be indented. -/
theorem hangingIndent_eq_none_iff (level : Int) (p : Paragraph) :
    (hangingIndent level p).2 = none ↔ isIndentable level = true := by
  unfold hangingIndent isIndentable
  rcases indentOfLevel level with e | emu
  · simp [Change.stop]
  · have hstops := (setLeftIndent_stops emu).all_cons
      ((setHanging_stops listHanging).all_cons Change.all_nil_stops) p
    rw [hstops]
    simp

/-- In accepted settings a passage can be formatted exactly if its level, if it has one, can be
indented. -/
theorem Passage.format_eq_none_iff {settings : Settings} (haccepted : settings.Accepted)
    (p : Passage) (q : Paragraph) :
    (p.format settings q).2 = none ↔
      ∀ level, p.level? = some level → isIndentable level = true := by
  have hcolor (f : ColorField) : textFailure? (f.get settings) = none := by
    rw [textFailure?, isCompatibleText_of_isHexColor (haccepted.isHexColor f)]
    rfl
  cases p with
  | itemStart level mark content =>
    rw [Passage.format, hangingIndent_eq_none_iff]
    simp [Passage.level?]
  | codeLine first last line =>
    have hstops := (addParagraphShade_stops settings.codeShade).all_cons
      ((setSpacing_stops (codeMargin first) (codeMargin last)).all_cons Change.all_nil_stops) q
    have hshade : textFailure? settings.codeShade = none := hcolor .codeShade
    rw [Passage.format, hstops]
    simp [Passage.level?, hshade]
  | quoted content =>
    have hstops := (addBorder_stops "left" settings.ruleColor 12).all_cons
      ((setLeftIndent_stops quoteIndent).all_cons Change.all_nil_stops) q
    have hrule : textFailure? settings.ruleColor = none := hcolor .rule
    rw [Passage.format, hstops]
    simp [Passage.level?, quoteIndent, Paragraph.maxIndent, hrule]
  | rule =>
    have hrule : textFailure? settings.ruleColor = none := hcolor .rule
    rw [Passage.format, addBorder_stops "bottom" settings.ruleColor 6 q]
    simp [Passage.level?, hrule]
  | cell header content =>
    have hshade : textFailure? settings.headerShade = none := hcolor .headerShade
    cases header <;> simp [Passage.format, Passage.level?, hshade]
  | heading level content => simp [Passage.level?, Passage.format, noFormat, Change.always]
  | paragraph content => simp [Passage.level?, Passage.format, noFormat, Change.always]
  | spacer => simp [Passage.level?, Passage.format, noFormat, Change.always]

/-! ### Writing clean texts -/

section Clean

variable {env : Surroundings} {s : RenderState} (haccepted : env.settings.Accepted)
  (hfont : isCompatibleText env.settings.codeFont = true) (hanswers : env.web.Answers)

/-- A text that XML can hold can be written if XML can hold the code font. -/
theorem textRunFailure?_eq_none {settings : Settings}
    (hfont : isCompatibleText settings.codeFont = true) {text : String}
    (htext : isCompatibleText text = true) (style : RunStyle) :
    textRunFailure? settings text style = none := by
  simp [textRunFailure?, RunStyle.fontFailure?, textFailure?, htext, hfont]

include haccepted hfont hanswers

/-- A clean fragment can be written exactly if its source, if it has one, can be loaded. -/
theorem Fragment.write_clean_iff {f : Fragment} (hsound : f.Sound) (hclean : f.isClean = true)
    {attached : Bool} (hs : s.Loadable env) :
    (f.write env attached s).result = .ok () ↔ ∀ url ∈ f.sources, isLoadable env url = true := by
  unfold Fragment.Sound at hsound
  cases hsound with
  | text content h =>
    simp [Fragment.write, writeText_eq_ok_iff h.left, textRunFailure?_eq_none hfont hclean,
      Fragment.sources]
  | lineBreak => simp [Fragment.write, writeBreak, Fragment.sources]
  | image url alt h =>
    simp only [Fragment.isClean, Bool.and_eq_true] at hclean
    have hcaption := textRunFailure?_eq_none hfont ((isCompatibleText_caption alt).trans hclean.2)
    rcases hurl : isBlankText url
    · rw [Fragment.write_image_eq_ok_iff hurl, embedImage_eq_ok_iff haccepted h.left]
      have hload : (∃ fetched, (loadImage env url s).2 = .ok fetched) ↔ _ :=
        load_eq_ok_iff hanswers hs
      simp only [Fragment.sources, hurl, Bool.false_eq_true, ↓reduceIte, List.mem_singleton,
        forall_eq, ← hload, hcaption, or_true, and_true]
      constructor
      · rintro ⟨t, fetched, hloaded⟩
        exact ⟨fetched, by rw [hloaded]⟩
      · rintro ⟨fetched, hloaded⟩
        exact ⟨_, fetched, Prod.ext rfl hloaded⟩
    · rw [Fragment.write_blank_eq_ok_iff haccepted hurl h.left]
      simp [Fragment.sources, hurl, hcaption]

/-- The label of a clean link can be written exactly if its sources can be loaded. -/
theorem writeLabel_clean_iff {url : String} {children : List Inline} {style : RunStyle}
    (hstyle : style.Sound) (style' : RunStyle) (hurl : isCompatibleText url = true)
    (hchildren : allClean children = true) {attached : Bool} (hs : s.Loadable env) :
    (writeLabel env attached url children style s).result = .ok () ↔
      ∀ u ∈ (Segment.link url children style').sources, isLoadable env u = true := by
  rw [writeLabel_eq, ← labelFragments_sources env.settings url children style style']
  have hfragments := Step.forEach_eq_ok_iff (I := RenderState.Loadable env)
    (fun f _ s ↦ (f.write_learns hanswers attached s).loadable)
    (fun f hf s hs ↦ Fragment.write_clean_iff haccepted hfont hanswers
      (labelFragments_sound haccepted url children hstyle f hf)
      (labelFragments_clean env.settings hurl hchildren style f hf) hs) hs
  rw [hfragments, List.forall_mem_flatMap]

/-- A clean link can be written exactly if the sources of its label can be loaded. -/
theorem writeLink_clean_iff {url : String} {children : List Inline} {style : RunStyle}
    (hstyle : style.Sound) (hurl : isCompatibleText url = true)
    (hchildren : allClean children = true) (hs : s.Loadable env) :
    (writeLink env url children style s).result = .ok () ↔
      ∀ u ∈ (Segment.link url children style).sources, isLoadable env u = true := by
  have hlink := hstyle.merge (RunStyle.sound_ofLink haccepted)
  have hkeep := (writeHyperlink_learns url (writeLabel_learns hanswers false url children
    (style.merge (.ofLink env.settings))) s).loadable hs
  -- Without a hyperlink it is written as its label is.
  have hplain {t : RenderState} (ht : writeHyperlink env url (writeLabel env false url children
      (style.merge (.ofLink env.settings))) s = ⟨[], t, .ok false⟩) :
      (writeLink env url children style s).result = .ok () ↔
        ∀ u ∈ (Segment.link url children style).sources, isLoadable env u = true := by
    rw [ht] at hkeep
    have hlabel : (writeLabel env true url children style t).result = .ok () ↔ _ :=
      writeLabel_clean_iff haccepted hfont hanswers hstyle style hurl hchildren hkeep
    rw [← hlabel]
    simp [writeLink, Step.bind, ht, inParagraph]
  have hlabel : (writeLabel env false url children (style.merge (.ofLink env.settings))
      (labelStart url s)).result = .ok () ↔ _ :=
    writeLabel_clean_iff haccepted hfont hanswers hlink style hurl hchildren
      ((grows_labelStart env url s).loadable hs)
  rcases writeHyperlink_cases env url (writeLabel env false url children
    (style.merge (.ofLink env.settings))) s with
    ⟨-, log, hwritten⟩ | ⟨-, e, log, -, hwritten⟩ | ⟨-, hresult, hwritten⟩
  · exact hplain hwritten
  · exact hplain hwritten
  · rw [← hlabel, hresult]
    simp [writeLink, Step.bind, hwritten]

/-- A clean segment can be written exactly if its sources can be loaded. -/
theorem Segment.write_clean_iff {x : Segment} (hsound : x.Sound) (hclean : x.isClean = true)
    (hs : s.Loadable env) :
    (x.write env s).result = .ok () ↔ ∀ url ∈ x.sources, isLoadable env url = true := by
  cases x with
  | fragment f => exact f.write_clean_iff haccepted hfont hanswers hsound hclean hs
  | link url children style =>
    simp only [Segment.isClean, Bool.and_eq_true] at hclean
    exact writeLink_clean_iff haccepted hfont hanswers hsound hclean.1 hclean.2 hs

/-- A clean passage can be written exactly if it can be indented and its sources can be loaded. -/
theorem Passage.write_clean_iff {p : Passage} (hclean : p.isClean = true) (hs : s.Loadable env) :
    (p.write env s).result = .ok () ↔
      (∀ level, p.level? = some level → isIndentable level = true) ∧
        ∀ url ∈ sourcesIn p.content, isLoadable env url = true := by
  have hkeep : ∀ x ∈ p.segments env.settings, (Segment.write env x).Obeys
      fun s _ t ↦ s.Loadable env → t.Loadable env :=
    fun x _ s ↦ (x.write_learns hanswers s).loadable
  have hwritten : ∀ x ∈ p.segments env.settings, ∀ s : RenderState, s.Loadable env →
      ((Segment.write env x s).result = .ok () ↔
        ∀ url ∈ x.sources, isLoadable env url = true) :=
    fun x hx s hs ↦ Segment.write_clean_iff haccepted hfont hanswers
      (p.segments_sound haccepted x hx) (p.segments_clean env.settings hclean x hx) hs
  have hsegments := Step.forEach_eq_ok_iff hkeep hwritten hs
  rw [← List.forall_mem_flatMap, (p.segments_references env.settings).2] at hsegments
  rw [← p.format_eq_none_iff haccepted Paragraph.empty, ← hsegments]
  unfold Passage.write writeFormatted
  rcases p.format env.settings Paragraph.empty with ⟨q, _ | e⟩ <;> simp

end Clean

/-! ### Documents -/

/-- No links lead in a circle on the way of an asset root and of a source below it. -/
def FileTree.Reaches (tree : FileTree) (root : PurePath) (source : String) : Prop :=
  ∃ base location, tree.resolve root = .ok base ∧
    tree.resolve ((pathOf base).join (.ofString source)) = .ok location

theorem isOk_imagePlaces_iff {tree : FileTree} {root : PurePath} {source : String}
    (hsource : Char.ofNat 0 ∉ source.toList) :
    (imagePlaces tree root source).isOk = true ↔
      root.holdsNul = false ∧ tree.Reaches root source := by
  unfold imagePlaces FileTree.Reaches
  rcases root.holdsNul
  · rcases tree.resolve root with place | base
    · simp [Except.isOk, Except.toBool]
    · rcases hlocation : tree.resolve ((FileTree.pathOf base).join (.ofString source)) with
        place | location <;> simp [Except.isOk, Except.toBool, hlocation, hsource]
  · simp [Except.isOk, Except.toBool]

/-- With a fetcher of the caller, a source that XML can hold can be loaded exactly if it is remote or
can be placed below the asset root, if there is one. -/
theorem isLoadable_iff {env : Surroundings} (hgiven : env.fetcher = .given) {url : String}
    (hurl : isCompatibleText url = true) :
    isLoadable env url = true ↔ ∀ root, env.assetRoot = some root →
      Url.isRemote url = true ∨ (root.holdsNul = false ∧ env.files.Reaches root url) := by
  have hnul : Char.ofNat 0 ∉ url.toList := by
    simp only [isCompatibleText, isCompatible, List.all_eq_true] at hurl
    exact fun hmem ↦ absurd (hurl _ hmem) (by decide)
  unfold isLoadable
  rcases hremote : Url.isRemote url
  · rcases env.assetRoot with _ | root
    · simp
    · simpa using isOk_imagePlaces_iff hnul
  · simp [hgiven]

/-- The list items of a text can be indented exactly if it is nested no deeper than 4697 levels. -/
theorem isIndentable_passagesOf_iff (blocks : List Block) :
    (∀ p ∈ passagesOf 1 blocks, ∀ level, p.level? = some level → isIndentable level = true) ↔
      nestingOf blocks ≤ 4697 := by
  have hmem (l : Int) := mem_levels_passagesOf (l := l) blocks 1
  simp only [List.mem_filterMap] at hmem
  constructor
  · intro h
    by_contra hdeep
    -- The text has an item at every level up to its nesting, and so one at the first level that
    -- cannot be indented.
    obtain ⟨p, hp, hlevel⟩ := (hmem (4698 : Nat)).mpr (by omega)
    have hbound := (isIndentable_iff _).mp (h p hp _ hlevel)
    omega
  · intro hnesting p hp level hlevel
    obtain ⟨hlow, hhigh⟩ := (hmem level).mp ⟨p, hp, hlevel⟩
    exact (isIndentable_iff level).mpr (by omega)

/-- The sources of a clean text can be loaded exactly if each is remote or can be placed below the
asset root, if there is one. -/
theorem isLoadable_sourcesOf_iff {env : Surroundings} (hgiven : env.fetcher = .given)
    {blocks : List Block} (hclean : blocksClean blocks = true) :
    (∀ url ∈ sourcesOf blocks, isLoadable env url = true) ↔
      ∀ root, env.assetRoot = some root → ∀ url ∈ sourcesOf blocks,
        Url.isRemote url = true ∨ (root.holdsNul = false ∧ env.files.Reaches root url) := by
  have hcompatible : ∀ url ∈ sourcesOf blocks, isCompatibleText url = true := by
    rw [sourcesOf, List.forall_mem_flatMap]
    exact fun p hp ↦ sourcesIn_clean (Passage.content_clean (passagesOf_clean hclean 1 p hp))
  constructor
  · intro h root hroot url hurl
    exact (isLoadable_iff hgiven (hcompatible url hurl)).mp (h url hurl) root hroot
  · intro h url hurl
    exact (isLoadable_iff hgiven (hcompatible url hurl)).mpr fun root hroot ↦ h root hroot url hurl

/-- In accepted settings with a code font that XML can hold, with a network that answers and a
fetcher of the caller, a clean text becomes a document exactly if its list items are nested no
deeper than 4697 levels, and each image is remote or is to be read below an asset root without a NUL
character and not along links that lead in a circle, if there is an asset root. -/
theorem build_clean_iff {env : Surroundings} (haccepted : env.settings.Accepted)
    (hfont : isCompatibleText env.settings.codeFont = true) (hanswers : env.web.Answers)
    (hgiven : env.fetcher = .given) (hcreate : env.faults.create = none) {blocks : List Block}
    (hclean : blocksClean blocks = true) :
    (∃ d, (build env blocks).2 = .ok d) ↔
      nestingOf blocks ≤ 4697 ∧
        ∀ root, env.assetRoot = some root → ∀ url ∈ sourcesOf blocks,
          Url.isRemote url = true ∨ (root.holdsNul = false ∧ env.files.Reaches root url) := by
  have hkeep : ∀ p ∈ passagesOf 1 blocks, (Passage.write env p).Obeys
      fun s _ t ↦ s.Loadable env → t.Loadable env :=
    fun p _ s ↦ (p.write_learns hanswers s).loadable
  have hwritten : ∀ p ∈ passagesOf 1 blocks, ∀ s : RenderState, s.Loadable env →
      ((Passage.write env p s).result = .ok () ↔
        (∀ level, p.level? = some level → isIndentable level = true) ∧
          ∀ url ∈ sourcesIn p.content, isLoadable env url = true) :=
    fun p hp s hs ↦ p.write_clean_iff haccepted hfont hanswers
      (passagesOf_clean hclean 1 p hp) hs
  have hpassages := Step.forEach_eq_ok_iff hkeep hwritten (s := {}) (List.forall_mem_nil _)
  rw [build_eq_ok_iff, writePassages, hpassages, and_iff_right hcreate,
    ← isIndentable_passagesOf_iff, ← isLoadable_sourcesOf_iff hgiven hclean, sourcesOf,
    List.forall_mem_flatMap]
  exact ⟨fun h ↦ ⟨fun p hp ↦ (h p hp).1, fun p hp ↦ (h p hp).2⟩,
    fun h p hp ↦ ⟨h.1 p hp, h.2 p hp⟩⟩

/-- A list in a list, with an image. -/
def illustratedList : List Block :=
  [.list true [[.paragraph [.text "a"],
    .list false [[.paragraph [.image "p.png" none [.text "alt"]]]]]]]

theorem answers_notFound : (Surroundings.web {}).Answers := fun _ _ _ h ↦ by cases h

theorem build_clean_iff_illustratedList :
    blocksClean illustratedList = true ∧ ∃ d, (build {} illustratedList).2 = .ok d := by
  have hclean : blocksClean illustratedList = true := by decide
  refine ⟨hclean, (build_clean_iff Settings.accepted_default (by decide) answers_notFound rfl
    rfl hclean).mpr ⟨by decide, ?_⟩⟩
  intro root hroot
  cases hroot

/-- Surroundings with a NUL character in the asset root. -/
def nulRoot : Surroundings := { assetRoot := some (PurePath.ofString "x\x00y") }

/-- The same list is not built if its image is to be read below an asset root that no file system
has. -/
theorem illustratedList_nulRoot :
    nulRoot.settings.Accepted ∧ isCompatibleText nulRoot.settings.codeFont = true ∧
      nulRoot.web.Answers ∧ nulRoot.fetcher = .given ∧ blocksClean illustratedList = true ∧
      (build nulRoot illustratedList).2 = .error .nulInPath :=
  ⟨Settings.accepted_default, by decide, answers_notFound, rfl, by decide, by rfl⟩

end Folio
