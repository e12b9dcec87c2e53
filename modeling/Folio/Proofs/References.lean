import Folio.Proofs.Flattening
import Folio.Proofs.Registration
import Folio.Proofs.Retry

/-!
# References of a document

A document refers to its relationships in two ways: hyperlinks by their targets, and drawings by the
images that they show. In steady surroundings both refer to what the text names, in the order in
which it names it (`references_resolve`): the hyperlinks lead to the targets of the links of the
text (`linksOf`), two of them by one relationship exactly if their targets are the same, and the
drawings show the images that the sources in the text gave (`sourcesOf`).
-/

set_option autoImplicit false
set_option relaxedAutoImplicit false

namespace Folio

open Word

/-! ### What a text refers to -/

mutual

/-- The targets of the links of a piece of inline content that become hyperlinks: links that stand
in others are parts of their labels. -/
def Inline.links : Inline → List String
  | .emphasis _ children => linksIn children
  | .link url _ children => if isBlankText url then linksIn children else [url]
  | _ => []

/-- The targets of the links of inline content that become hyperlinks. -/
def linksIn : List Inline → List String
  | [] => []
  | x :: xs => x.links ++ linksIn xs

end

mutual

/-- The sources of the images of a piece of inline content. Blank ones are captioned, and the label
of a link is its target if its content shows nothing. -/
def Inline.sources : Inline → List String
  | .emphasis _ children => sourcesIn children
  | .link url _ children =>
    if isBlankText url || anyVisible children then sourcesIn children else []
  | .image url _ _ => if isBlankText url then [] else [url]
  | _ => []

/-- The sources of the images of inline content. -/
def sourcesIn : List Inline → List String
  | [] => []
  | x :: xs => x.sources ++ sourcesIn xs

end

/-- The inline content of a passage. -/
def Passage.content : Passage → List Inline
  | .heading _ content => content
  | .paragraph content => content
  | .itemStart _ _ content => content
  | .quoted content => content
  | .cell _ content => content
  | _ => []

/-- The targets of the links of a text that become hyperlinks, in reading order. -/
def linksOf (blocks : List Block) : List String :=
  (passagesOf 1 blocks).flatMap fun p ↦ linksIn p.content

/-- The sources of the images of a text, in reading order. -/
def sourcesOf (blocks : List Block) : List String :=
  (passagesOf 1 blocks).flatMap fun p ↦ sourcesIn p.content

/-! ### Fragments and segments -/

/-- The source of a fragment, if it is an image that has one. -/
def Fragment.sources : Fragment → List String
  | .image url _ _ => if isBlankText url then [] else [url]
  | _ => []

/-- The target of a segment, if it is a link. -/
def Segment.links : Segment → List String
  | .fragment _ => []
  | .link url _ _ => [url]

/-- The sources of a segment. -/
def Segment.sources : Segment → List String
  | .fragment f => f.sources
  | .link _ children _ => if anyVisible children then sourcesIn children else []

mutual

theorem Inline.flatMap_fragments_sources (settings : Settings) : ∀ (x : Inline) (style : RunStyle),
    (x.fragments settings style).flatMap Fragment.sources = x.sources
  | .text content, style => by simp [Inline.fragments, Fragment.sources, Inline.sources]
  | .emphasis n children, style => by
    rw [Inline.fragments, Inline.sources, fragmentsOf_sources settings children]
  | .code content, style => by simp [Inline.fragments, Fragment.sources, Inline.sources]
  | .lineBreak, style => by simp [Inline.fragments, Fragment.sources, Inline.sources]
  | .image url title content, style => by
    simp [Inline.fragments, Fragment.sources, Inline.sources]
  | .link url title children, style => by
    rw [Inline.fragments, Inline.sources]
    split
    · exact fragmentsOf_sources settings children style
    · simp [Fragment.sources]
  | .unknown, style => by simp [Inline.fragments, Inline.sources]

/-- The fragments of inline content have its sources. -/
theorem fragmentsOf_sources (settings : Settings) : ∀ (xs : List Inline) (style : RunStyle),
    (fragmentsOf settings xs style).flatMap Fragment.sources = sourcesIn xs
  | [], style => rfl
  | x :: xs, style => by
    rw [fragmentsOf, sourcesIn, List.flatMap_append, Inline.flatMap_fragments_sources settings x,
      fragmentsOf_sources settings xs]

end

/-- The fragments of the label of a link have the sources of the link. -/
theorem labelFragments_sources (settings : Settings) (url : String) (children : List Inline)
    (style style' : RunStyle) :
    (labelFragments settings url children style).flatMap Fragment.sources =
      (Segment.link url children style').sources := by
  rw [labelFragments, Segment.sources]
  split
  · exact fragmentsOf_sources settings children style
  · simp [Fragment.sources]

mutual

theorem Inline.segments_references (settings : Settings) : ∀ (x : Inline) (style : RunStyle),
    (x.segments settings style).flatMap Segment.links = x.links ∧
      (x.segments settings style).flatMap Segment.sources = x.sources
  | .emphasis n children, style => by
    rw [Inline.segments, Inline.links, Inline.sources]
    exact segmentsOf_references settings children _
  | .link url title children, style => by
    rw [Inline.segments, Inline.links, Inline.sources]
    rcases hurl : isBlankText url
    · simp [Segment.links, Segment.sources]
    · simpa using segmentsOf_references settings children style
  | .text content, style => by
    simp [Inline.segments, Inline.fragments, Inline.links, Inline.sources, Segment.links,
      Segment.sources, Fragment.sources]
  | .code content, style => by
    simp [Inline.segments, Inline.fragments, Inline.links, Inline.sources, Segment.links,
      Segment.sources, Fragment.sources]
  | .lineBreak, style => by
    simp [Inline.segments, Inline.fragments, Inline.links, Inline.sources, Segment.links,
      Segment.sources, Fragment.sources]
  | .image url title content, style => by
    simp [Inline.segments, Inline.fragments, Inline.links, Inline.sources, Segment.links,
      Segment.sources, Fragment.sources]
  | .unknown, style => by
    simp [Inline.segments, Inline.fragments, Inline.links, Inline.sources]

/-- The segments of inline content have its links and its sources. -/
theorem segmentsOf_references (settings : Settings) : ∀ (xs : List Inline) (style : RunStyle),
    (segmentsOf settings xs style).flatMap Segment.links = linksIn xs ∧
      (segmentsOf settings xs style).flatMap Segment.sources = sourcesIn xs
  | [], style => ⟨rfl, rfl⟩
  | x :: xs, style => by
    obtain ⟨hlinks, hsources⟩ := Inline.segments_references settings x style
    obtain ⟨hlinks', hsources'⟩ := segmentsOf_references settings xs style
    rw [segmentsOf, linksIn, sourcesIn, List.flatMap_append, List.flatMap_append, hlinks, hlinks',
      hsources, hsources']
    exact ⟨rfl, rfl⟩

end

/-- The segments of a passage have the links and the sources of its content. -/
theorem Passage.segments_references (settings : Settings) (p : Passage) :
    (p.segments settings).flatMap Segment.links = linksIn p.content ∧
      (p.segments settings).flatMap Segment.sources = sourcesIn p.content := by
  cases p with
  | itemStart level mark content => exact segmentsOf_references settings content _
  | codeLine first last line =>
    rw [Passage.segments]
    split <;> exact ⟨rfl, rfl⟩
  | heading level content => exact segmentsOf_references settings content _
  | paragraph content => exact segmentsOf_references settings content _
  | quoted content => exact segmentsOf_references settings content _
  | cell header content => exact segmentsOf_references settings content _
  | rule => exact ⟨rfl, rfl⟩
  | spacer => exact ⟨rfl, rfl⟩

/-! ### References that resolve -/

/-- Hyperlinks lead to the targets of links, and drawings show the images that sources gave. -/
structure Resolves (env : Surroundings) (s : RenderState) (links sources : List String)
    (ids : List Nat) (pictures : List Drawing) : Prop where
  targets : ids.map s.relationships.target? =
    links.map fun url ↦ some (.external (Url.resolved url))
  contents : pictures.map (fun d ↦ s.relationships.content? d.relationship) =
    (sources.filterMap (drawnContent? env s)).map some
  loaded : ∀ url ∈ sources, (s.loaded? url).isSome = true

namespace Resolves

variable {env : Surroundings} {s t : RenderState} {links sources links' sources' : List String}
  {ids ids' : List Nat} {pictures pictures' : List Drawing}

theorem nil : Resolves env s [] [] [] [] := ⟨rfl, rfl, List.forall_mem_nil _⟩

theorem append (h : Resolves env s links sources ids pictures)
    (h' : Resolves env s links' sources' ids' pictures') :
    Resolves env s (links ++ links') (sources ++ sources') (ids ++ ids') (pictures ++ pictures') :=
  ⟨by rw [List.map_append, List.map_append, h.targets, h'.targets],
    by rw [List.map_append, List.filterMap_append, List.map_append, h.contents, h'.contents],
    List.forall_mem_append.mpr ⟨h.loaded, h'.loaded⟩⟩

/-- What resolves goes on to in a later state. -/
theorem grows (h : Resolves env s links sources ids pictures) (hgrows : s.Grows env t) :
    Resolves env t links sources ids pictures where
  targets := by
    rw [← h.targets]
    refine List.map_congr_left fun id hid ↦ ?_
    have hmem : s.relationships.target? id ∈ ids.map s.relationships.target? :=
      List.mem_map_of_mem hid
    rw [h.targets] at hmem
    obtain ⟨url, -, htarget⟩ := List.mem_map.mp hmem
    rw [← htarget]
    exact Relationships.target?_mono hgrows.relationships htarget.symm
  contents := by
    have hknown : ∀ url ∈ sources, drawnContent? env t url = drawnContent? env s url := by
      intro url hurl
      obtain ⟨fetched, hfetched⟩ := Option.isSome_iff_exists.mp (h.loaded url hurl)
      simp only [drawnContent?, loadImage, hfetched, loaded?_mono hgrows.images hfetched]
    rw [List.filterMap_congr hknown, ← h.contents]
    refine List.map_congr_left fun d hd ↦ ?_
    have hmem : s.relationships.content? d.relationship ∈
        pictures.map fun d ↦ s.relationships.content? d.relationship :=
      List.mem_map_of_mem hd
    rw [h.contents] at hmem
    obtain ⟨content, -, hcontent⟩ := List.mem_map.mp hmem
    rw [← hcontent]
    exact Relationships.content?_mono hgrows.relationships hcontent.symm
  loaded url hurl := by
    obtain ⟨fetched, hfetched⟩ := Option.isSome_iff_exists.mp (h.loaded url hurl)
    rw [loaded?_mono hgrows.images hfetched]
    rfl

/-- A source whose image is not drawn. -/
theorem undrawn {url : String} {fetched : Fetched} (hknown : s.loaded? url = some fetched)
    (h : drawnContent? env s url = none) : Resolves env s [] [url] [] [] :=
  ⟨rfl, by simp [h], List.forall_mem_singleton.mpr (by rw [hknown]; rfl)⟩

/-- A source whose image is drawn. -/
theorem drawn {url : String} {fetched : Fetched} {content : Bytes} {d : Drawing}
    (hknown : s.loaded? url = some fetched) (h : drawnContent? env s url = some content)
    (hcontent : s.relationships.content? d.relationship = some content) :
    Resolves env s [] [url] [] [d] :=
  ⟨rfl, by simp [h, hcontent], List.forall_mem_singleton.mpr (by rw [hknown]; rfl)⟩

end Resolves

/-- A step that succeeds makes a state grow, and what it writes refers to links and sources. -/
def Step.Refers {ω α : Type} (env : Surroundings) (ids : ω → List Nat) (pictures : ω → List Drawing)
    (links sources : List String) (step : Step ω α) : Prop :=
  ∀ s a, s.relationships.Distinct → s.Loadable env → (step s).result = .ok a →
    s.Grows env (step s).state ∧
      Resolves env (step s).state links sources ((step s).written.flatMap ids)
        ((step s).written.flatMap pictures)

/-- Steps for the elements of a list refer to all that each of them refers to. -/
theorem Step.refers_forEach {ω α : Type} {env : Surroundings} {ids : ω → List Nat}
    {pictures : ω → List Drawing} {links sources : α → List String} {step : α → Step ω Unit}
    (as : List α) (h : ∀ a ∈ as, (step a).Refers env ids pictures (links a) (sources a)) :
    (Step.forEach step as).Refers env ids pictures (as.flatMap links) (as.flatMap sources) := by
  induction as with
  | nil => exact fun s _ _ _ _ ↦ ⟨.refl s, .nil⟩
  | cons a as ih =>
    intro s b hdistinct hloadable hok
    obtain ⟨⟨⟩, hfirst, hrest⟩ := Step.ok_of_bind_ok hok
    obtain ⟨hgrows, hrefers⟩ := h a List.mem_cons_self s () hdistinct hloadable hfirst
    obtain ⟨hgrows', hrefers'⟩ := ih (fun x hx ↦ h x (List.mem_cons_of_mem a hx)) _ b
      (hgrows.distinct hdistinct) (hgrows.loadable hloadable) hrest
    rw [Step.forEach_cons, Step.bind_of_ok hfirst]
    refine ⟨hgrows.trans hgrows', ?_⟩
    simp only [List.flatMap_cons, List.flatMap_append]
    exact (hrefers.grows hgrows').append hrefers'

/-! ### Writing fragments -/

section Write

variable {env : Surroundings}

/-- The relationship of a drawing leads to the image that it draws. -/
theorem content?_of_drawn {s t : RenderState} {url : String} {kind : ImageKind} {content : Bytes}
    {d : Drawing} (h : drawImage env url kind content s = (t, some d)) :
    t.relationships.content? d.relationship = some content := by
  rcases drawImage_spec env url kind content s with ⟨n, hspec, -⟩ | ⟨n, drawing, hspec, -, hid⟩
  · rw [hspec] at h
    cases h
  · rw [hspec] at h
    cases h
    rw [(hid d rfl).1]
    exact Relationships.content?_register _ _ _ _

/-- An image refers to its source. -/
theorem embedImage_refers (henv : env.Steady) (attached : Bool) (url alt : String)
    (style : RunStyle) :
    (embedImage env attached url alt style).Refers env (fun _ ↦ []) Run.drawings [] [url] := by
  intro s b _ _ hok
  refine ⟨embedImage_obeys (RenderState.Grows.recording henv.answers) attached url alt style s, ?_⟩
  have hids (runs : List Run) : runs.flatMap (fun _ ↦ ([] : List Nat)) = [] := by simp
  rw [hids]
  rcases hload : loadImage env url s with ⟨t, e | ⟨content, mediaType⟩ | why⟩
  · rw [embedImage_of_unloaded attached alt style hload] at hok
    cases hok
  · have hloaded : t.loaded? url = some (.image content mediaType) := loaded?_of_load hload
    have himages := drawImage_images env url (imageKind url mediaType) content t
    have hdrawable := isSome_drawImage henv.registers url (imageKind url mediaType) content t
    rcases hdraw : drawImage env url (imageKind url mediaType) content t with ⟨u, _ | d⟩
    all_goals
      rw [hdraw] at himages hdrawable
      have hknown : u.loaded? url = some (.image content mediaType) := by
        rw [RenderState.loaded?, himages]
        exact hloaded
      have hdrawn := @drawnContent?_of_image env _ _ _ _ hknown
      rw [← hdrawable] at hdrawn
    · rw [embedImage_of_undrawn attached alt style hload hdraw,
        (captionOutcome_idle _ _ _ _ _).drawings]
      exact (Resolves.undrawn hknown hdrawn).grows (.of_eq rfl rfl)
    · obtain ⟨log, hwritten⟩ := embedImage_of_drawn attached alt style hload hdraw
      have hcontent := content?_of_drawn hdraw
      rw [hwritten]
      cases attached <;>
        exact (Resolves.drawn hknown hdrawn hcontent).grows (.of_eq rfl rfl)
  · rw [embedImage_of_missing attached alt style hload, (captionOutcome_idle _ _ _ _ _).drawings]
    have hloaded : t.loaded? url = some (.missing why) := loaded?_of_load hload
    exact (Resolves.undrawn hloaded (drawnContent?_of_missing hloaded)).grows (.of_eq rfl rfl)

/-- A fragment refers to its source. -/
theorem Fragment.write_refers (henv : env.Steady) (attached : Bool) (f : Fragment) :
    (f.write env attached).Refers env (fun _ ↦ []) Run.drawings [] f.sources := by
  have hmake {change : Change Run} (hchange : (change Run.empty).1.drawings = []) :
      (Step.make Run.empty change).Refers env (fun _ ↦ []) Run.drawings [] [] := by
    intro s _ _ _ _
    rcases hmade : change Run.empty with ⟨run, _ | e⟩ <;>
      rw [hmade] at hchange <;>
      simp only [Step.make, hmade, List.flatMap_cons, List.flatMap_nil, hchange] <;>
      exact ⟨.refl s, .nil⟩
  cases f with
  | text content style => exact hmake (textRun_drawings _ _ _)
  | lineBreak => exact fun s _ _ _ _ ↦ ⟨.refl s, .nil⟩
  | image url alt style =>
    rcases hurl : isBlankText url
    · intro s _ hdistinct hloadable hok
      have hrefers := embedImage_refers henv attached url alt style s
      simp only [Fragment.write, Fragment.sources, hurl, Bool.false_eq_true, ↓reduceIte] at hok ⊢
      obtain ⟨b, hembed, -⟩ := Step.ok_of_bind_ok hok
      rw [Step.bind_of_ok hembed]
      simpa using hrefers b hdistinct hloadable hembed
    · simp only [Fragment.write, Fragment.sources, hurl, ↓reduceIte]
      exact hmake (captionRun_drawings _ _ _)

/-! ### Writing segments and passages -/

/-- The label of a link refers to the sources of the link. -/
theorem writeLabel_refers (henv : env.Steady) (attached : Bool) (url : String)
    (children : List Inline) (style style' : RunStyle) :
    (writeLabel env attached url children style).Refers env (fun _ ↦ []) Run.drawings []
      (Segment.link url children style').sources := by
  have hlabel := Step.refers_forEach (labelFragments env.settings url children style)
    fun f _ ↦ f.write_refers henv attached
  have hlinks : (labelFragments env.settings url children style).flatMap
      (fun _ ↦ ([] : List String)) = [] := by simp
  rwa [hlinks, labelFragments_sources env.settings url children style style',
    ← writeLabel_eq] at hlabel

/-- A link in a sound style refers to its target and to the sources of its label. -/
theorem writeLink_refers (henv : env.Steady) (url : String) (children : List Inline)
    {style : RunStyle} (hstyle : style.Sound) :
    (writeLink env url children style).Refers env ParagraphItem.hyperlinks
      ParagraphItem.drawings [url] (Segment.link url children style).sources := by
  intro s _ hdistinct hloadable hok
  have hlabel := label_of_writeLink henv hstyle hloadable hok
  have hstart := grows_labelStart env url s
  obtain ⟨hgrows, hrefers⟩ := writeLabel_refers henv false url children
    (style.merge (.ofLink env.settings)) style (labelStart url s) () (hstart.distinct hdistinct)
    (hstart.loadable hloadable) hlabel
  have htarget : (labelStart url s).relationships.target? (targetId url s) =
      some (.external (Url.resolved url)) := by
    obtain ⟨log, hlog⟩ := noteTarget_eq url s
    simpa only [labelStart, targetId, hlog] using hdistinct.target?_relate (Url.resolved url)
  have hlink : Resolves env (writeLabel env false url children
      (style.merge (.ofLink env.settings)) (labelStart url s)).state [url] [] [targetId url s] [] :=
    ⟨by simp [Relationships.target?_mono hgrows.relationships htarget], rfl, List.forall_mem_nil _⟩
  have hboth : Resolves env (writeLabel env false url children
      (style.merge (.ofLink env.settings)) (labelStart url s)).state [url]
      (Segment.link url children style).sources [targetId url s]
      ((writeLabel env false url children
        (style.merge (.ofLink env.settings)) (labelStart url s)).written.flatMap Run.drawings) := by
    have hids (runs : List Run) : runs.flatMap (fun _ ↦ ([] : List Nat)) = [] := by simp
    rw [hids] at hrefers
    exact hlink.append hrefers
  simp only [writeLink, Step.bind, writeHyperlink_of_built (henv.registers _) hlabel,
    ParagraphItem.hyperlinks, ParagraphItem.drawings, ParagraphItem.runs, ↓reduceIte,
    Step.done_apply, List.append_nil, List.flatMap_cons, List.flatMap_nil]
  exact ⟨(hstart.trans hgrows).trans (.of_eq rfl rfl), hboth.grows (.of_eq rfl rfl)⟩

/-- A segment in a sound style refers to its links and to its sources. -/
theorem Segment.write_refers (henv : env.Steady) {x : Segment} (hx : x.Sound) :
    (x.write env).Refers env ParagraphItem.hyperlinks ParagraphItem.drawings x.links
      x.sources := by
  cases x with
  | link url children style => exact writeLink_refers henv url children hx
  | fragment f =>
    intro s _ hdistinct hloadable hok
    obtain ⟨hgrows, hrefers⟩ := f.write_refers henv true s () hdistinct hloadable hok
    refine ⟨hgrows, ?_⟩
    simpa [Segment.write, Segment.links, Segment.sources, inParagraph, List.flatMap_map,
      ParagraphItem.hyperlinks, ParagraphItem.drawings, ParagraphItem.runs] using hrefers

/-- A passage refers to the links and to the sources of its content. -/
theorem Passage.write_refers (henv : env.Steady) (p : Passage) :
    (p.write env).Refers env Paragraph.hyperlinks Paragraph.drawings (linksIn p.content)
      (sourcesIn p.content) := by
  intro s _ hdistinct hloadable hok
  obtain ⟨q, hitems, hcontent, hwrite⟩ := Passage.write_of_ok hok
  obtain ⟨hlinks, hsources⟩ := p.segments_references env.settings
  have hsegments := Step.refers_forEach (p.segments env.settings) fun x hx ↦
    Segment.write_refers henv (p.segments_sound henv.accepted x hx)
  obtain ⟨hgrows, hrefers⟩ := hsegments s () hdistinct hloadable hcontent
  rw [hwrite]
  refine ⟨hgrows, ?_⟩
  rw [hlinks, hsources, ← hitems] at hrefers
  simpa [Paragraph.hyperlinks, Paragraph.drawings] using hrefers

end Write

/-! ### Documents -/

/-- Every hyperlink of a document that is built in steady surroundings leads to the target of the
link that it comes from, by a relationship that it shares with those and only those of the same
target. Every drawing shows the content of the image that it comes from. -/
theorem references_resolve {env : Surroundings} (henv : env.Steady) {blocks : List Block}
    {s : RenderState} {d : Document} (h : build env blocks = (s, .ok d)) :
    d.relationships.ids.Nodup ∧
    (hyperlinksOf d.body).map d.relationships.target? =
      (linksOf blocks).map (fun url ↦ some (.external (Url.resolved url))) ∧
    (∀ i j : Nat, (hyperlinksOf d.body)[i]? = (hyperlinksOf d.body)[j]? ↔
      ((linksOf blocks).map Url.resolved)[i]? = ((linksOf blocks).map Url.resolved)[j]?) ∧
    (drawingsOf d.body).map (fun picture ↦ d.relationships.content? picture.relationship) =
      ((sourcesOf blocks).filterMap (drawnContent? env s)).map some := by
  obtain ⟨hok, hwritten, hstate, hrelationships⟩ := written_of_build h
  have hpassages := Step.refers_forEach (passagesOf 1 blocks) fun p _ ↦ p.write_refers henv
  obtain ⟨hgrows, hresolves⟩ := hpassages {} () Relationships.distinct_nil
    (List.forall_mem_nil _) hok
  have hdistinct := hgrows.distinct Relationships.distinct_nil
  rw [writePassages] at hwritten hstate
  rw [hwritten, hstate] at hresolves
  rw [hstate, ← hrelationships] at hdistinct
  have htargets := hresolves.targets
  have hcontents := hresolves.contents
  rw [← hrelationships] at htargets hcontents
  refine ⟨hdistinct.nodup_ids, htargets, ?_, hcontents⟩
  exact hdistinct.getElem?_eq_iff (by rw [List.map_map]; exact htargets)

/-- A text with two links to one target, one of them with an image, and a link to another. -/
def linkedText : List Block :=
  [.paragraph [.link "http://a/" none [.text "x"], .link "http://b/" none [.text "y"],
    .link "http://a/" none [.image "http://c/d.png" none []]]]

/-- Surroundings in which every request gets the same image. -/
def sameImage : Surroundings := { web := fun _ _ ↦ .response 200 [1, 2] none }

theorem sameImage_steady : sameImage.Steady :=
  ⟨Settings.accepted_default, nofun, fun _ ↦ rfl⟩

theorem references_resolve_linkedText :
    sameImage.Steady ∧ ∃ s d, build sameImage linkedText = (s, .ok d) ∧
      hyperlinksOf d.body = [9, 10, 9] ∧
      (hyperlinksOf d.body).map d.relationships.target? =
        (linksOf linkedText).map (fun url ↦ some (.external (Url.resolved url))) ∧
      (drawingsOf d.body).map (fun picture ↦ d.relationships.content? picture.relationship) =
        [some [1, 2]] := by
  have hbuilt : (build sameImage linkedText).2.toOption.map
      (fun d ↦ (hyperlinksOf d.body, (drawingsOf d.body).map
        fun picture ↦ d.relationships.content? picture.relationship)) =
          some ([9, 10, 9], [some [1, 2]]) := by decide +kernel
  rcases hbuild : build sameImage linkedText with ⟨s, e | d⟩
  · rw [hbuild] at hbuilt
    cases hbuilt
  · rw [hbuild] at hbuilt
    obtain ⟨hlinks, hcontents⟩ := Prod.mk.inj (Option.some.inj hbuilt)
    exact ⟨sameImage_steady, s, d, rfl, hlinks,
      (references_resolve sameImage_steady hbuild).2.1, hcontents⟩

end Folio
