import Folio.Proofs.Building
import Folio.Proofs.ImageUrls
import Mathlib.Data.List.Nodup

/-!
# Each image is loaded once

Rendering loads images one after another, and some loads it makes twice: a link whose label fails
is written again as text, and a text may name one source in several places. The loads of a step are
listed beside it (`Fragment.loads`, `Segment.loads`, `Passage.loads`, `SessionStep.loads`). As long
as all loads return, a state stays in order: its requests are the remote ones of the sources that it
knows, and it knows each source once, in order of the first load (`Follows`). So a session never
requests a source twice and never changes its mind about one, and a document knows the images of its
text in the order in which the text names them first (`images_loaded_once`).
-/

set_option autoImplicit false
set_option relaxedAutoImplicit false

namespace Folio

open Word

/-! ### First occurrences -/

section Repetition

variable {α : Type} [DecidableEq α]

/-- The first occurrences in a list do not repeat. -/
theorem nodup_eraseDups : ∀ as : List α, as.eraseDups.Nodup
  | [] => List.nodup_nil
  | a :: as => by
    rw [List.eraseDups_cons]
    exact List.nodup_cons.mpr ⟨by simp [List.mem_eraseDups], nodup_eraseDups _⟩
termination_by as => as.length
decreasing_by exact Nat.lt_succ_of_le (List.length_filter_le _ _)

/-- A list that does not repeat is its own list of first occurrences. -/
theorem eraseDups_of_nodup {as : List α} (h : as.Nodup) : as.eraseDups = as := by
  induction as with
  | nil => rfl
  | cons a as ih =>
    obtain ⟨ha, has⟩ := List.nodup_cons.mp h
    have hfilter : as.filter (fun b ↦ !b == a) = as :=
      List.filter_eq_self.mpr fun b hb ↦ by simpa using ne_of_mem_of_not_mem hb ha
    rw [List.eraseDups_cons, hfilter, ih has]

/-- The first occurrences of what passes a test are the first occurrences that pass it. -/
theorem filter_eraseDups (p : α → Bool) : ∀ as : List α,
    as.eraseDups.filter p = (as.filter p).eraseDups
  | [] => rfl
  | a :: as => by
    rw [List.eraseDups_cons]
    by_cases hp : p a
    · rw [List.filter_cons_of_pos hp, List.filter_cons_of_pos hp, List.eraseDups_cons,
        filter_eraseDups p, List.filter_comm]
    · have hother : (as.filter fun b ↦ !b == a).filter p = as.filter p := by
        rw [List.filter_filter]
        refine List.filter_congr fun b _ ↦ ?_
        rcases eq_or_ne b a with rfl | hb
        · simp [hp]
        · simp [hb]
      rw [List.filter_cons_of_neg hp, List.filter_cons_of_neg hp, filter_eraseDups p, hother]
termination_by as => as.length
decreasing_by all_goals exact Nat.lt_succ_of_le (List.length_filter_le _ _)

/-- What has occurred before makes no difference. -/
theorem eraseDups_append_of_subset {as bs : List α} (h : bs ⊆ as) (cs : List α) :
    (as ++ (bs ++ cs)).eraseDups = (as ++ cs).eraseDups := by
  have hnone : (bs ++ cs).removeAll as = cs.removeAll as := by
    unfold List.removeAll
    rw [List.filter_append, List.filter_eq_nil_iff.mpr, List.nil_append]
    exact fun b hb ↦ by simpa using h hb
  rw [List.eraseDups_append, List.eraseDups_append, hnone]

/-- The first occurrences in a list may be taken before more follows. -/
theorem eraseDups_append_eraseDups (as bs : List α) :
    (as.eraseDups ++ bs).eraseDups = (as ++ bs).eraseDups := by
  have hsame : bs.removeAll as.eraseDups = bs.removeAll as := by
    unfold List.removeAll
    refine List.filter_congr fun b _ ↦ ?_
    rw [Bool.eq_iff_iff]
    simp [List.mem_eraseDups]
  rw [List.eraseDups_append, List.eraseDups_append, eraseDups_of_nodup (nodup_eraseDups as), hsame]

end Repetition

/-! ### Loads of steps -/

/-- A load of an image: its source, and what it returned or why it failed. -/
structure Load where
  source : String
  result : Except Failure Fetched

/-- Whether a load returned, with an image or without. -/
def Load.returns (l : Load) : Bool :=
  match l.result with
  | .ok _ => true
  | .error _ => false

/-- The load of a source in a state. -/
def loadOf (env : Surroundings) (url : String) (s : RenderState) : Load :=
  ⟨url, (loadImage env url s).2⟩

section Steps

variable {ω α : Type}

/-- The loads of what follows a step: none if the step fails. -/
def Step.loadsAfter (first : Step ω α) (loads : α → RenderState → List Load) (s : RenderState) :
    List Load :=
  match (first s).result with
  | .ok a => loads a (first s).state
  | .error _ => []

/-- The loads of steps for the elements of a list, up to the first that fails. -/
def Step.loadsOfEach (step : α → Step ω Unit) (loads : α → RenderState → List Load) :
    List α → RenderState → List Load
  | [], _ => []
  | a :: as, s => loads a s ++ (step a).loadsAfter (fun _ ↦ loadsOfEach step loads as) s

variable {first : Step ω α} {loads : α → RenderState → List Load} {s : RenderState}

theorem Step.loadsAfter_of_ok {a : α} (h : (first s).result = .ok a) :
    first.loadsAfter loads s = loads a (first s).state := by
  simp only [loadsAfter, h]

theorem Step.loadsAfter_of_error {e : Failure} (h : (first s).result = .error e) :
    first.loadsAfter loads s = [] := by
  simp only [loadsAfter, h]

@[simp] theorem Step.loadsAfter_nil : first.loadsAfter (fun _ _ ↦ []) s = [] := by
  unfold loadsAfter
  split <;> rfl

end Steps

/-- The loads of a fragment: an image with a source is loaded. -/
def Fragment.loads (env : Surroundings) : Fragment → RenderState → List Load
  | .image url _ _, s => if isBlankText url then [] else [loadOf env url s]
  | _, _ => []

/-- The loads of fragments that are written one after the other. -/
def fragmentLoads (env : Surroundings) (attached : Bool) (fs : List Fragment) :
    RenderState → List Load :=
  Step.loadsOfEach (Fragment.write env attached) (Fragment.loads env) fs

/-- The loads of a hyperlink: those of its label, which is not begun if the target is refused. -/
def hyperlinkLoads (env : Surroundings) (url : String) (label : RenderState → List Load)
    (s : RenderState) : List Load :=
  if (env.faults.relate s.registrations).isSome then [] else label (labelStart url s)

/-- The loads of a link: those of its label, which is written again if the hyperlink fails. -/
def linkLoads (env : Surroundings) (url : String) (children : List Inline) (style : RunStyle)
    (s : RenderState) : List Load :=
  let marked := style.merge (.ofLink env.settings)
  hyperlinkLoads env url
      (fragmentLoads env false (labelFragments env.settings url children marked)) s ++
    (writeHyperlink env url (writeLabel env false url children marked)).loadsAfter
      (fun built ↦ if built then fun _ ↦ []
        else fragmentLoads env true (labelFragments env.settings url children style)) s

/-- The loads of a segment. -/
def Segment.loads (env : Surroundings) : Segment → RenderState → List Load
  | .fragment f => f.loads env
  | .link url children style => linkLoads env url children style

/-- The loads of segments that are written one after the other. -/
def segmentLoads (env : Surroundings) (xs : List Segment) : RenderState → List Load :=
  Step.loadsOfEach (Segment.write env) (Segment.loads env) xs

/-- The loads of a passage: its content is not begun if its format fails. -/
def Passage.loads (env : Surroundings) (p : Passage) (s : RenderState) : List Load :=
  match p.format env.settings Paragraph.empty with
  | (_, some _) => []
  | (_, none) => segmentLoads env (p.segments env.settings) s

/-- The loads of passages that are written one after the other. -/
def passageLoads (env : Surroundings) (ps : List Passage) : RenderState → List Load :=
  Step.loadsOfEach (Passage.write env) (Passage.loads env) ps

/-- The loads of a document. -/
def documentLoads (env : Surroundings) (blocks : List Block) : List Load :=
  if env.faults.create.isSome then [] else passageLoads env (passagesOf 1 blocks) {}

/-- The loads of a step of a session. -/
def SessionStep.loads (env : Surroundings) (x : Session) (step : SessionStep) : List Load :=
  let env := { env with web := x.web }
  match step with
  | .block b => passageLoads env (b.passages (x.state.listDepth + 1)) x.state
  | .inlines content style runsOnly _ =>
    if runsOnly then fragmentLoads env true (fragmentsOf env.settings content style) x.state
    else segmentLoads env (segmentsOf env.settings content style) x.state
  | .link url label content style _ _ =>
    hyperlinkLoads env url
      (Step.loadsAfter (Step.forEach (fun t ↦ Step.make Run.empty (Run.write t)) label) fun _ ↦
        fragmentLoads env false (fragmentsOf env.settings content style)) x.state
  | .image url _ _ _ => [loadOf env url x.state]
  | .load url => [loadOf env url x.state]
  | _ => []

/-- A session that steps lead to, and all loads that they made. -/
inductive Session.Loaded (env : Surroundings) : Session → List Load → Prop
  | start (web : Web) : Loaded env { web := web } []
  | step {x : Session} {loads : List Load} (h : Loaded env x loads) (s : SessionStep) :
      Loaded env (x.step env s).1 (loads ++ s.loads env x)

/-- A session and its loads after one more step. -/
def Session.advance (env : Surroundings) (y : Session × List Load) (s : SessionStep) :
    Session × List Load :=
  ((y.1.step env s).1, y.2 ++ s.loads env y.1)

/-- The session after steps, and its loads. -/
def Session.after (env : Surroundings) (steps : List SessionStep) : Session × List Load :=
  steps.foldl (Session.advance env) ({ web := env.web }, [])

theorem Session.loaded_after (env : Surroundings) (steps : List SessionStep) :
    (Session.after env steps).1.Loaded env (Session.after env steps).2 := by
  have hfold (y : Session × List Load) (h : y.1.Loaded env y.2) :
      (steps.foldl (Session.advance env) y).1.Loaded env
        (steps.foldl (Session.advance env) y).2 := by
    induction steps generalizing y with
    | nil => exact h
    | cons s steps ih => exact ih _ (h.step s)
  exact hfold _ (.start env.web)

/-! ### States in order -/

/-- The sources that are known in a state. -/
def RenderState.sources (s : RenderState) : List String := s.images.map (·.1)

/-- Each source is known once, and the remote ones have been requested in the same order. -/
structure RenderState.Orderly (s : RenderState) : Prop where
  nodup : s.sources.Nodup
  requests : s.requests = s.sources.filter Url.isRemote

/-- What loads that return lead to from a state: a state in order that knows what was known before,
and each source that was loaded, by its first result. -/
structure Leads (s : RenderState) (loads : List Load) (t : RenderState) : Prop where
  requests : t.requests = t.sources.filter Url.isRemote
  images : s.images <+: t.images
  sources : t.sources = (s.sources ++ loads.map Load.source).eraseDups
  results : ∀ l ∈ loads, (t.loaded? l.source).map .ok = some l.result

/-- From a state in order, loads lead to a state if all of them return. -/
def Follows (s : RenderState) (loads : List Load) (t : RenderState) : Prop :=
  s.Orderly → (∀ l ∈ loads, l.returns = true) → Leads s loads t

section Follows

variable {s t u : RenderState} {loads loads' : List Load}

theorem Leads.orderly (h : Leads s loads t) : t.Orderly :=
  ⟨by rw [h.sources]; exact nodup_eraseDups _, h.requests⟩

/-- A state that knows the same images and has made the same requests. -/
theorem Follows.of_eq (himages : t.images = s.images) (hrequests : t.requests = s.requests) :
    Follows s [] t := by
  intro hs _
  have hsources : t.sources = s.sources := by rw [RenderState.sources, himages, RenderState.sources]
  refine ⟨?_, himages ▸ List.prefix_refl _, ?_, List.forall_mem_nil _⟩
  · rw [hrequests, hsources, hs.requests]
  · rw [hsources, List.map_nil, List.append_nil, eraseDups_of_nodup hs.nodup]

theorem Follows.append (h : Follows s loads t) (h' : Follows t loads' u) :
    Follows s (loads ++ loads') u := by
  intro hs hreturns
  obtain ⟨hfirst, hrest⟩ := List.forall_mem_append.mp hreturns
  have hst := h hs hfirst
  have htu := h' hst.orderly hrest
  refine ⟨htu.requests, hst.images.trans htu.images, ?_, ?_⟩
  · rw [htu.sources, hst.sources, eraseDups_append_eraseDups, List.map_append, List.append_assoc]
  · refine List.forall_mem_append.mpr ⟨fun l hl ↦ ?_, htu.results⟩
    obtain ⟨fetched, hknown, hresult⟩ := Option.map_eq_some_iff.mp (hst.results l hl)
    rw [loaded?_mono htu.images hknown, Option.map_some, hresult]

/-- A state that differs from one that follows in neither images nor requests follows as well. -/
theorem Follows.congr (h : Follows s loads t) (himages : u.images = t.images)
    (hrequests : u.requests = t.requests) : Follows s loads u := by
  have hboth : Follows s (loads ++ []) u := h.append (.of_eq himages hrequests)
  rwa [List.append_nil] at hboth

end Follows

/-! ### Loading -/

section Loading

variable {env : Surroundings} {s t : RenderState} {url : String} {fetched : Fetched}

/-- A source is known exactly if there is a result for it. -/
theorem mem_sources_iff : url ∈ s.sources ↔ (s.loaded? url).isSome = true := by
  simp only [RenderState.sources, RenderState.loaded?, List.mem_map, Option.isSome_map,
    List.find?_isSome, decide_eq_true_eq]

/-- Loading anew requests a source exactly if it is remote. -/
theorem requests_of_loadAnew (h : loadAnew env url s = (t, .ok fetched)) :
    t.requests = s.requests ++ [url].filter Url.isRemote := by
  unfold loadAnew at h
  by_cases hremote : Url.isRemote url = true
  · rw [List.filter_cons_of_pos hremote, List.filter_nil]
    simp only [hremote, ↓reduceIte, fetchImage] at h
    split at h
    · simp at h
    · rw [← (Prod.mk.inj h).1]
      rfl
  · rw [List.filter_cons_of_neg hremote, List.filter_nil, List.append_nil]
    rw [if_neg hremote] at h
    rw [(Prod.mk.inj h).1]

/-- A source that is not known becomes the last one that is. -/
theorem leads_of_unknown (hs : s.Orderly) (hunknown : s.loaded? url = none)
    (h : loadImage env url s = (t, .ok fetched)) : Leads s [⟨url, .ok fetched⟩] t := by
  have hnew : url ∉ s.sources := by simp [mem_sources_iff, hunknown]
  have hnodup : (s.sources ++ [url]).Nodup :=
    List.nodup_append.mpr ⟨hs.nodup, List.nodup_singleton url, by
      rintro a ha b hb rfl
      exact hnew (List.mem_singleton.mp hb ▸ ha)⟩
  have hresult := loaded?_of_load h
  obtain ⟨u, hanew, rfl⟩ : ∃ u, loadAnew env url s = (u, .ok fetched) ∧
      { u with images := u.images ++ [(url, fetched)] } = t := by
    simp only [loadImage, hunknown] at h
    rcases hanew : loadAnew env url s with ⟨u, e | new⟩
    · simp [hanew] at h
    · simp only [hanew, Prod.mk.injEq, Except.ok.injEq] at h
      exact ⟨u, by rw [h.2], by rw [← h.1, h.2]⟩
  have hrequests := requests_of_loadAnew hanew
  obtain ⟨requests, log, rfl⟩ := state_of_loadAnew hanew
  have hsources : RenderState.sources { s with
      requests := requests, log := log, images := s.images ++ [(url, fetched)] } =
        s.sources ++ [url] := by simp [RenderState.sources]
  constructor
  · rw [hsources, List.filter_append, ← hs.requests]
    exact hrequests
  · exact List.prefix_append _ _
  · rw [hsources]
    exact (eraseDups_of_nodup hnodup).symm
  · exact List.forall_mem_singleton.mpr (by rw [hresult]; rfl)

/-- A source that is known is not loaded again. -/
theorem leads_of_known (hs : s.Orderly) (hknown : s.loaded? url = some fetched) :
    Leads s [⟨url, .ok fetched⟩] s := by
  have hold : [url] ⊆ s.sources := by simp [mem_sources_iff, hknown]
  have hsources := eraseDups_append_of_subset hold []
  rw [List.append_nil, List.append_nil, eraseDups_of_nodup hs.nodup] at hsources
  exact ⟨hs.requests, List.prefix_refl _, hsources.symm,
    List.forall_mem_singleton.mpr (by rw [hknown]; rfl)⟩

/-- Loading a source follows from its load. -/
theorem loadImage_follows (env : Surroundings) (url : String) (s : RenderState) :
    Follows s [loadOf env url s] (loadImage env url s).1 := by
  intro hs hreturns
  have hreturn : (loadOf env url s).returns = true := hreturns _ List.mem_cons_self
  unfold loadOf at hreturn ⊢
  rcases hload : loadImage env url s with ⟨t, e | fetched⟩
  · simp [Load.returns, hload] at hreturn
  · rcases hknown : s.loaded? url with _ | known
    · exact leads_of_unknown hs hknown hload
    · simp only [loadImage, hknown, Prod.mk.injEq, Except.ok.injEq] at hload
      obtain ⟨rfl, rfl⟩ := hload
      exact leads_of_known hs hknown

end Loading

/-! ### Steps that follow from their loads -/

/-- From every state, a step leads where its loads lead, however it ends. -/
def Step.FollowsLoads {ω α : Type} (step : Step ω α) (loads : RenderState → List Load) : Prop :=
  ∀ s, Follows s (loads s) (step s).state

namespace Step

variable {ω ω' α β : Type}

/-- A step that leaves images and requests loads nothing. -/
theorem followsLoads_nil {step : Step ω α}
    (h : ∀ s, (step s).state.images = s.images ∧ (step s).state.requests = s.requests) :
    step.FollowsLoads fun _ ↦ [] := fun s ↦ .of_eq (h s).1 (h s).2

theorem followsLoads_make (start : ω) (change : Change ω) :
    (make start change).FollowsLoads fun _ ↦ [] := by
  refine followsLoads_nil fun s ↦ ?_
  rcases hchange : change start with ⟨piece, _ | e⟩ <;> simp [make, hchange]

theorem FollowsLoads.bind {first : Step ω α} {next : α → Step ω β}
    {loads : RenderState → List Load} {after : α → RenderState → List Load}
    (hfirst : first.FollowsLoads loads) (hnext : ∀ a, (next a).FollowsLoads (after a)) :
    (first.bind next).FollowsLoads fun s ↦ loads s ++ first.loadsAfter after s := by
  intro s
  show Follows s (loads s ++ first.loadsAfter after s) _
  rcases hresult : (first s).result with e | a
  · rw [loadsAfter_of_error hresult, bind_of_error hresult, List.append_nil]
    exact hfirst s
  · rw [loadsAfter_of_ok hresult, bind_of_ok hresult]
    exact (hfirst s).append (hnext a _)

/-- A step after which nothing is loaded. -/
theorem FollowsLoads.bind_nil {first : Step ω α} {next : α → Step ω β}
    {loads : RenderState → List Load} (hfirst : first.FollowsLoads loads)
    (hnext : ∀ a, (next a).FollowsLoads fun _ ↦ []) : (first.bind next).FollowsLoads loads := by
  intro s
  have hboth := hfirst.bind hnext s
  simpa only [loadsAfter_nil, List.append_nil] using hboth

theorem followsLoads_forEach {step : α → Step ω Unit} {loads : α → RenderState → List Load}
    (h : ∀ a, (step a).FollowsLoads (loads a)) (as : List α) :
    (forEach step as).FollowsLoads (loadsOfEach step loads as) := by
  induction as with
  | nil => exact followsLoads_nil fun s ↦ ⟨rfl, rfl⟩
  | cons a as ih => exact (h a).bind fun _ ↦ ih

/-- Steps that load nothing load nothing in sequence. -/
theorem followsLoads_forEach_nil {step : α → Step ω Unit}
    (h : ∀ a, (step a).FollowsLoads fun _ ↦ []) (as : List α) :
    (forEach step as).FollowsLoads fun _ ↦ [] := by
  induction as with
  | nil => exact followsLoads_nil fun s ↦ ⟨rfl, rfl⟩
  | cons a as ih => exact (h a).bind_nil fun _ ↦ ih

end Step

section Write

variable {env : Surroundings}

/-- Writing an image follows from its load. -/
theorem embedImage_follows (attached : Bool) (url alt : String) (style : RunStyle) :
    (embedImage env attached url alt style).FollowsLoads fun s ↦ [loadOf env url s] := by
  intro s
  obtain ⟨relationships, registrations, lastDrawing, log, hstate⟩ :=
    @state_of_embed env s url attached alt style
  rw [hstate]
  exact (loadImage_follows env url s).congr rfl rfl

theorem Fragment.write_follows (attached : Bool) (f : Fragment) :
    (f.write env attached).FollowsLoads (f.loads env) := by
  cases f with
  | text content style => exact Step.followsLoads_make _ _
  | lineBreak => exact Step.followsLoads_nil fun s ↦ ⟨rfl, rfl⟩
  | image url alt style =>
    intro s
    by_cases hurl : isBlankText url = true
    · simp only [Fragment.write, Fragment.loads, hurl, ↓reduceIte]
      exact Step.followsLoads_make _ _ s
    · simp only [Fragment.write, Fragment.loads, hurl, ↓reduceIte, Bool.false_eq_true]
      exact (embedImage_follows attached url alt style).bind_nil
        (fun _ ↦ Step.followsLoads_nil fun _ ↦ ⟨rfl, rfl⟩) s

theorem fragments_follow (attached : Bool) (fs : List Fragment) :
    (Step.forEach (Fragment.write env attached) fs).FollowsLoads
      (fragmentLoads env attached fs) :=
  Step.followsLoads_forEach (Fragment.write_follows attached) fs

/-- The state in which a label is written has the images and the requests of the state before. -/
theorem labelStart_follows (url : String) (s : RenderState) : Follows s [] (labelStart url s) := by
  obtain ⟨log, hlog⟩ := noteTarget_eq url s
  rw [labelStart, hlog]
  exact .of_eq rfl rfl

/-- Writing a hyperlink follows from the loads of its label. -/
theorem writeHyperlink_follows (url : String) {label : Step Run Unit}
    {loads : RenderState → List Load} (hlabel : label.FollowsLoads loads) :
    (writeHyperlink env url label).FollowsLoads (hyperlinkLoads env url loads) := by
  intro s
  have hwritten : Follows s (loads (labelStart url s)) (label (labelStart url s)).state :=
    (labelStart_follows url s).append (hlabel _)
  unfold hyperlinkLoads
  rcases writeHyperlink_cases env url label s with
    ⟨hrefused, log, hlink⟩ | ⟨hasked, e, log, -, hlink⟩ | ⟨hasked, -, hlink⟩
  · rw [hlink, if_pos hrefused]
    exact .of_eq rfl rfl
  · rw [hlink, hasked]
    exact hwritten.congr rfl rfl
  · rw [hlink, hasked]
    exact hwritten.congr rfl rfl

theorem writeLink_follows (url : String) (children : List Inline) (style : RunStyle) :
    (writeLink env url children style).FollowsLoads (linkLoads env url children style) := by
  unfold writeLink linkLoads
  refine (writeHyperlink_follows url ?_).bind fun built ↦ ?_
  · rw [writeLabel_eq]
    exact fragments_follow false _
  · cases built
    · rw [writeLabel_eq]
      exact fragments_follow true _
    · exact Step.followsLoads_nil fun s ↦ ⟨rfl, rfl⟩

theorem Segment.write_follows (x : Segment) : (x.write env).FollowsLoads (x.loads env) := by
  cases x with
  | fragment f => exact f.write_follows true
  | link url children style => exact writeLink_follows url children style

theorem segments_follow (xs : List Segment) :
    (Step.forEach (Segment.write env) xs).FollowsLoads (segmentLoads env xs) :=
  Step.followsLoads_forEach Segment.write_follows xs

theorem Passage.write_follows (p : Passage) : (p.write env).FollowsLoads (p.loads env) := by
  intro s
  unfold Passage.write writeFormatted Passage.loads
  rcases p.format env.settings Paragraph.empty with ⟨q, _ | e⟩
  · exact segments_follow (p.segments env.settings) s
  · exact .of_eq rfl rfl

theorem passages_follow (ps : List Passage) :
    (writePassages env ps).FollowsLoads (passageLoads env ps) :=
  Step.followsLoads_forEach Passage.write_follows ps

/-- Writing a block follows from the loads of its passages. -/
theorem writeBlock_follows (b : Block) :
    (writeBlock env b).FollowsLoads fun s ↦
      passageLoads env (b.passages (s.listDepth + 1)) s := by
  intro s
  obtain ⟨-, hstate, -⟩ := writeBlock_flattens env s.listDepth b s rfl
  rw [hstate]
  exact passages_follow _ s

end Write

/-! ### Sessions -/

/-- The label of a link of a session follows from the loads of its content. -/
theorem linkLabel_follows (env : Surroundings) (texts : List String) (content : List Inline)
    (style : RunStyle) (failing : Bool) :
    (Session.linkLabel env texts content style failing).FollowsLoads
      (Step.loadsAfter (Step.forEach (fun t ↦ Step.make Run.empty (Run.write t)) texts) fun _ ↦
        fragmentLoads env false (fragmentsOf env.settings content style)) := by
  have htexts := Step.followsLoads_forEach_nil
    (fun t ↦ Step.followsLoads_make Run.empty (Run.write t)) texts
  have hcontent : ((writeRuns env false content style).bind fun _ ↦
      if failing then Step.fail (.service "label refused") else Step.done ()).FollowsLoads
        (fragmentLoads env false (fragmentsOf env.settings content style)) := by
    rw [writeRuns_eq]
    refine (fragments_follow false _).bind_nil fun _ ↦ Step.followsLoads_nil fun _ ↦ ?_
    cases failing <;> exact ⟨rfl, rfl⟩
  exact htexts.bind fun _ ↦ hcontent

namespace Session

/-- A step of a session follows from its loads. -/
theorem step_follows (env : Surroundings) (x : Session) (s : SessionStep) :
    Follows x.state (s.loads env x) (x.step env s).1.state := by
  cases s with
  | block b => exact writeBlock_follows b x.state
  | inlines content style runsOnly continued =>
    simp only [step, intoParagraph_state, SessionStep.loads]
    cases runsOnly
    · rw [writeItems_eq]
      exact segments_follow _ x.state
    · rw [writeRuns_eq]
      exact fragments_follow true _ x.state
  | link url label content style failing continued =>
    simp only [step, intoParagraph_state, SessionStep.loads]
    exact writeHyperlink_follows url (linkLabel_follows _ label content style failing) x.state
  | image url alt style continued =>
    simp only [step, intoParagraph_state, SessionStep.loads]
    exact embedImage_follows true url alt style x.state
  | load url => exact loadImage_follows { env with web := x.web } url x.state
  | depth value => exact .of_eq rfl rfl
  | network web => exact .of_eq rfl rfl

end Session

/-! ### Which sources are loaded -/

/-- Two lists have the same first occurrences, whatever comes before them. -/
def SameFirsts (as bs : List String) : Prop :=
  ∀ before : List String, (before ++ as).eraseDups = (before ++ bs).eraseDups

namespace SameFirsts

variable {as bs as' bs' : List String}

theorem refl (as : List String) : SameFirsts as as := fun _ ↦ rfl

theorem append (h : SameFirsts as bs) (h' : SameFirsts as' bs') :
    SameFirsts (as ++ as') (bs ++ bs') := fun before ↦
  calc (before ++ (as ++ as')).eraseDups
      = (before ++ as ++ bs').eraseDups := by rw [← List.append_assoc, h' (before ++ as)]
    _ = ((before ++ as).eraseDups ++ bs').eraseDups := (eraseDups_append_eraseDups _ _).symm
    _ = ((before ++ bs).eraseDups ++ bs').eraseDups := by rw [h before]
    _ = (before ++ (bs ++ bs')).eraseDups := by
      rw [eraseDups_append_eraseDups, List.append_assoc]

/-- A beginning of a list before the list makes no difference. -/
theorem of_beginning (h : as <+: bs) : SameFirsts (as ++ bs) bs := by
  obtain ⟨rest, rfl⟩ := h
  intro before
  have hsubset : as ⊆ before ++ as := List.subset_append_right before as
  simpa only [List.append_assoc] using eraseDups_append_of_subset hsubset rest

end SameFirsts

/-- A step that succeeds loads sources, if not for the first time then once more. -/
def Step.LoadsSources {ω : Type} (step : Step ω Unit) (loads : RenderState → List Load)
    (sources : List String) : Prop :=
  ∀ s, (step s).result = .ok () → SameFirsts ((loads s).map Load.source) sources

theorem Step.loadsSources_forEach {ω α : Type} {step : α → Step ω Unit}
    {loads : α → RenderState → List Load} {sources : α → List String} {as : List α}
    (h : ∀ a ∈ as, (step a).LoadsSources (loads a) (sources a)) :
    (forEach step as).LoadsSources (loadsOfEach step loads as) (as.flatMap sources) := by
  induction as with
  | nil => exact fun s _ ↦ .refl []
  | cons a as ih =>
    intro s hok
    obtain ⟨⟨⟩, hfirst, hrest⟩ := ok_of_bind_ok hok
    rw [loadsOfEach, loadsAfter_of_ok hfirst, List.map_append, List.flatMap_cons]
    exact (h a List.mem_cons_self s hfirst).append
      (ih (fun b hb ↦ h b (List.mem_cons_of_mem a hb)) _ hrest)

section Sources

variable {env : Surroundings}

theorem Fragment.map_loads (f : Fragment) (s : RenderState) :
    (f.loads env s).map Load.source = f.sources := by
  cases f with
  | text content style => rfl
  | lineBreak => rfl
  | image url alt style =>
    rw [Fragment.loads, Fragment.sources]
    split <;> rfl

/-- Fragments load their sources in turn, up to the fragment that fails. -/
theorem map_fragmentLoads (attached : Bool) (fs : List Fragment) (s : RenderState) :
    (fragmentLoads env attached fs s).map Load.source <+: fs.flatMap Fragment.sources ∧
      ((Step.forEach (Fragment.write env attached) fs s).result = .ok () →
        (fragmentLoads env attached fs s).map Load.source = fs.flatMap Fragment.sources) := by
  unfold fragmentLoads
  induction fs generalizing s with
  | nil => exact ⟨List.prefix_refl _, fun _ ↦ rfl⟩
  | cons f fs ih =>
    rw [Step.loadsOfEach, List.map_append, f.map_loads, List.flatMap_cons, Step.forEach_cons]
    rcases hresult : (f.write env attached s).result with e | ⟨⟩
    · rw [Step.loadsAfter_of_error hresult, Step.bind_of_error hresult, List.map_nil,
        List.append_nil]
      exact ⟨List.prefix_append _ _, nofun⟩
    · rw [Step.loadsAfter_of_ok hresult, Step.bind_of_ok hresult]
      obtain ⟨hbegins, hall⟩ := ih (f.write env attached s).state
      exact ⟨(List.prefix_append_right_inj _).mpr hbegins, fun hok ↦ by rw [hall hok]⟩

/-- A hyperlink loads the sources of its label in turn, and all of them if it is built. -/
theorem map_hyperlinkLoads (url : String) (fs : List Fragment) (s : RenderState) :
    (hyperlinkLoads env url (fragmentLoads env false fs) s).map Load.source <+:
        fs.flatMap Fragment.sources ∧
      ∃ built, (writeHyperlink env url (Step.forEach (Fragment.write env false) fs) s).result =
          .ok built ∧
        (built = true → (hyperlinkLoads env url (fragmentLoads env false fs) s).map Load.source =
          fs.flatMap Fragment.sources) := by
  obtain ⟨hbegins, hall⟩ := @map_fragmentLoads env false fs (labelStart url s)
  unfold hyperlinkLoads
  rcases writeHyperlink_cases env url (Step.forEach (Fragment.write env false) fs) s with
    ⟨hrefused, log, hlink⟩ | ⟨hasked, e, log, -, hlink⟩ | ⟨hasked, hlabel, hlink⟩
  · rw [if_pos hrefused, hlink]
    exact ⟨List.nil_prefix, false, rfl, nofun⟩
  · rw [hasked, hlink]
    exact ⟨hbegins, false, rfl, nofun⟩
  · rw [hasked, hlink]
    exact ⟨hbegins, true, rfl, fun _ ↦ hall hlabel⟩

/-- A link that is written loads the sources of its label, and before that perhaps some of them. -/
theorem writeLink_loadsSources (url : String) (children : List Inline) (style : RunStyle) :
    (writeLink env url children style).LoadsSources (linkLoads env url children style)
      (Segment.link url children style).sources := by
  intro s hok
  obtain ⟨hbegins, built, hbuilt, hall⟩ := @map_hyperlinkLoads env url
    (labelFragments env.settings url children (style.merge (.ofLink env.settings))) s
  rw [labelFragments_sources env.settings url children _ style] at hbegins hall
  simp only [writeLink, linkLoads, writeLabel_eq] at hok ⊢
  rw [Step.bind_of_ok hbuilt] at hok
  rw [Step.loadsAfter_of_ok hbuilt, List.map_append]
  by_cases hlink : built = true
  · rw [hall hlink, if_pos hlink, List.map_nil, List.append_nil]
    exact .refl _
  · simp only [if_neg hlink, inParagraph, Step.mapWritten_result] at hok ⊢
    rw [(map_fragmentLoads true _ _).2 hok,
      labelFragments_sources env.settings url children _ style]
    exact .of_beginning hbegins

theorem Segment.write_loadsSources (x : Segment) :
    (x.write env).LoadsSources (x.loads env) x.sources := by
  cases x with
  | fragment f =>
    intro s _
    rw [Segment.loads, f.map_loads]
    exact .refl _
  | link url children style => exact writeLink_loadsSources url children style

/-- A passage that is written loads the sources of its content. -/
theorem Passage.write_loadsSources (p : Passage) :
    (p.write env).LoadsSources (p.loads env) (sourcesIn p.content) := by
  intro s hok
  obtain ⟨-, -, hcontent, -⟩ := Passage.write_of_ok hok
  have hsegments := Step.loadsSources_forEach
    (fun x _ ↦ @Segment.write_loadsSources env x) s hcontent
  rw [(p.segments_references env.settings).2] at hsegments
  unfold Passage.loads
  rcases hformat : p.format env.settings Paragraph.empty with ⟨q, _ | e⟩
  · exact hsegments
  · simp [Passage.write, writeFormatted, hformat] at hok

end Sources

/-! ### Sessions and documents -/

theorem Session.Loaded.follows {env : Surroundings} {x : Session} {loads : List Load}
    (h : x.Loaded env loads) : Follows {} loads x.state := by
  induction h with
  | start web => exact .of_eq rfl rfl
  | step _ s ih => exact ih.append (Session.step_follows env _ s)

theorem RenderState.orderly_empty : RenderState.Orderly {} := ⟨List.nodup_nil, rfl⟩

/-- Each image is loaded once. In every session whose loads all return, the requests are the remote
sources that it loads, each in the place of its first load, so that nothing is requested twice and
nothing is that is not remote, and all loads of a source have one result. The requests of every
document whose loads all return are the remote sources of the images of its text, and the images
that it knows have the sources of all of them, each in the place where the text names it first. -/
theorem images_loaded_once (env : Surroundings) :
    (∀ (x : Session) (loads : List Load), x.Loaded env loads →
      (∀ l ∈ loads, l.returns = true) →
        x.state.requests = ((loads.map Load.source).filter Url.isRemote).eraseDups ∧
        x.state.requests.Nodup ∧ (∀ url ∈ x.state.requests, Url.isRemote url = true) ∧
        ∀ l ∈ loads, ∀ l' ∈ loads, l.source = l'.source → l.result = l'.result) ∧
    (∀ (blocks : List Block) (s : RenderState) (d : Document), build env blocks = (s, .ok d) →
      (∀ l ∈ documentLoads env blocks, l.returns = true) →
        s.requests = ((imageUrlsOf blocks).filter Url.isRemote).eraseDups ∧
        s.images.map (·.1) = (imageUrlsOf blocks).eraseDups) := by
  constructor
  · intro x loads hloaded hreturns
    have hleads := hloaded.follows RenderState.orderly_empty hreturns
    have hrequests : x.state.requests =
        ((loads.map Load.source).filter Url.isRemote).eraseDups := by
      rw [hleads.requests, hleads.sources, filter_eraseDups]
      rfl
    refine ⟨hrequests, hrequests ▸ nodup_eraseDups _, fun url hurl ↦ ?_, fun l hl l' hl' hsame ↦ ?_⟩
    · rw [hleads.requests] at hurl
      exact (List.mem_filter.mp hurl).2
    · have hresult := hleads.results l hl
      rw [hsame, hleads.results l' hl'] at hresult
      exact (Option.some.inj hresult).symm
  · intro blocks s d hbuild hreturns
    obtain ⟨hok, -, hstate, -⟩ := written_of_build hbuild
    obtain ⟨hcreate, -⟩ := build_eq_ok_iff.mp ⟨d, by rw [hbuild]⟩
    simp only [documentLoads, hcreate, Option.isSome_none, Bool.false_eq_true,
      ↓reduceIte] at hreturns
    have hleads := passages_follow (passagesOf 1 blocks) {} RenderState.orderly_empty hreturns
    have hsources : SameFirsts
        ((passageLoads env (passagesOf 1 blocks) {}).map Load.source) (sourcesOf blocks) :=
      Step.loadsSources_forEach (fun p _ ↦ Passage.write_loadsSources p) {} hok
    rw [hstate] at hleads
    have hknown : s.sources = (imageUrlsOf blocks).eraseDups := by
      rw [hleads.sources, ← sourcesOf_eq]
      exact hsources []
    exact ⟨by rw [hleads.requests, hknown, filter_eraseDups], hknown⟩

/-- Steps that load one image three times: it is missing, then the network has it, a link whose
label shows it fails, and it is loaded once more. -/
def revisits : List SessionStep :=
  [.image "http://a/p.png" "alt" .plain false,
    .network sameImage.web,
    .link "http://b/" [] [.image "http://a/p.png" none [], .image "q.png" none []] .plain true
      false,
    .load "http://a/p.png"]

/-- A text with one image twice, once in a link, and another between them. -/
def repeatedImages : List Block :=
  [.paragraph [.image "http://a/p.png" none []],
    .list false [[.paragraph [.image "q.png" none []]], [.quote [.paragraph [.link "http://b/" none
      [.image "http://a/p.png" none []], .image "http://a/r.png" none []]]]]]

theorem images_loaded_once_revisits :
    (∃ x loads, Session.Loaded {} x loads ∧
      loads.map Load.source = ["http://a/p.png", "http://a/p.png", "q.png", "http://a/p.png"] ∧
      x.state.requests = ["http://a/p.png"]) ∧
    ∃ s d, build sameImage repeatedImages = (s, .ok d) ∧
      s.requests = ["http://a/p.png", "http://a/r.png"] ∧
      s.images.map (·.1) = ["http://a/p.png", "q.png", "http://a/r.png"] := by
  constructor
  · have hloads : (Session.after {} revisits).2.map Load.source =
        ["http://a/p.png", "http://a/p.png", "q.png", "http://a/p.png"] := by decide +kernel
    obtain ⟨hrequests, -⟩ := (images_loaded_once {}).1 _ _ (Session.loaded_after {} revisits)
      (by decide +kernel)
    rw [hloads] at hrequests
    exact ⟨_, _, Session.loaded_after {} revisits, hloads, hrequests.trans (by decide +kernel)⟩
  · have hbuilt : (build sameImage repeatedImages).2.toOption.map (fun _ ↦ ()) = some () := by
      decide +kernel
    obtain ⟨s, d, hbuild, -⟩ := exists_build_of_map hbuilt
    obtain ⟨hrequests, himages⟩ := (images_loaded_once sameImage).2 repeatedImages s d hbuild
      (by decide +kernel)
    exact ⟨s, d, hbuild, hrequests.trans (by decide +kernel), himages.trans (by decide +kernel)⟩

end Folio
