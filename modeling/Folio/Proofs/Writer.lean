import Folio.Proofs.Hyperlink

/-!
# Writers of runs

A label is written by texts, line breaks and images, in any order and up to any failure
(`RunWriter`). A relation that composes and holds of loading and of drawing an image, and of all
that neither loads nor draws, is kept by every such writer however it ends (`RunWriter.obeys`).
-/

set_option autoImplicit false
set_option relaxedAutoImplicit false

namespace Folio

open Word

/-! ### Writers of runs -/

/-- Steps that write runs: runs that draw nothing, images, loads, log records and failures, in any
sequence. `attached` tells whether the runs become part of the document as they are written. -/
inductive RunWriter (env : Surroundings) (attached : Bool) : {α : Type} → Step Run α → Prop
  | done {α : Type} (a : α) : RunWriter env attached (Step.done a)
  | fail {α : Type} (e : Failure) : RunWriter env attached (Step.fail e : Step Run α)
  | bind {α β : Type} {first : Step Run α} {next : α → Step Run β}
      (hfirst : RunWriter env attached first) (hnext : ∀ a, RunWriter env attached (next a)) :
      RunWriter env attached (first.bind next)
  | make {change : Change Run} (h : (change Run.empty).1.drawings = []) :
      RunWriter env attached (Step.make Run.empty change)
  | note (level : LogLevel) (message : String) : RunWriter env attached (Step.note level message)
  | load (url : String) : RunWriter env attached (Step.update (loadImage env url))
  | image (url alt : String) (style : RunStyle) :
      RunWriter env attached (embedImage env attached url alt style)

namespace RunWriter

variable {env : Surroundings} {attached : Bool}

theorem forEach {α : Type} {step : α → Step Run Unit} {as : List α}
    (h : ∀ a ∈ as, RunWriter env attached (step a)) :
    RunWriter env attached (Step.forEach step as) := by
  induction as with
  | nil => exact .done ()
  | cons a as ih =>
    exact .bind (h a List.mem_cons_self) fun _ ↦ ih fun b hb ↦ h b (List.mem_cons_of_mem a hb)

/-- A line break is a run that draws nothing. -/
theorem lineBreak : RunWriter env attached writeBreak := by
  have hbreak : RunWriter env attached
      (Step.make Run.empty (.always fun r ↦ r.append .lineBreak)) := .make rfl
  exact hbreak

/-- A fragment is written by writing runs. -/
theorem fragment (f : Fragment) : RunWriter env attached (f.write env attached) := by
  cases f with
  | text content style => exact .make (textRun_drawings _ _ _)
  | lineBreak => exact lineBreak
  | image url alt style =>
    rw [Fragment.write]
    split
    · exact .make (captionRun_drawings _ _ _)
    · exact .bind (.image url alt style) fun _ ↦ .done ()

/-- Inline content is written by writing runs. -/
theorem writeRuns (content : List Inline) (style : RunStyle) :
    RunWriter env attached (writeRuns env attached content style) := by
  rw [writeRuns_eq]
  exact forEach fun f _ ↦ fragment f

/-- The label of a link is written by writing runs. -/
theorem writeLabel (url : String) (children : List Inline) (style : RunStyle) :
    RunWriter env attached (writeLabel env attached url children style) := by
  rw [writeLabel_eq]
  exact forEach fun f _ ↦ fragment f

end RunWriter

/-! ### Relations that writers keep -/

/-- Runs that draw nothing, and a state with the same hyperlinks, relationships and images. -/
structure Idle (s : RenderState) (runs : List Run) (t : RenderState) : Prop where
  drawings : runs.flatMap Run.drawings = []
  linked : t.linked = s.linked
  relationships : t.relationships = s.relationships
  images : t.images = s.images

/-- A relation between the state before, the runs written and the state after that composes and
holds of idle runs, of loading an image and of drawing one. -/
structure Recording (env : Surroundings) (R : RenderState → List Run → RenderState → Prop) : Prop
    extends Step.Sequential R where
  idle : ∀ {s runs t}, Idle s runs t → R s runs t
  load : ∀ {url s t result}, loadImage env url s = (t, result) → R s [] t
  draw : ∀ {url kind content s t drawing}, drawImage env url kind content s = (t, drawing) →
    R s (drawing.toList.map fun d ↦ Run.empty.append (.drawing d)) t

/-- A caption is idle. -/
theorem captionOutcome_idle (env : Surroundings) (alt : String) (style : RunStyle) (remark : String)
    (s : RenderState) : Idle s (captionOutcome env alt style remark s).written
      (captionOutcome env alt style remark s).state :=
  ⟨by simp [captionOutcome, captionRun_drawings], rfl, rfl, rfl⟩

section Recording

variable {env : Surroundings} {R : RenderState → List Run → RenderState → Prop}
  (hR : Recording env R)

include hR

/-- Writing an image loads it, draws it if it can be drawn, and is idle otherwise. -/
theorem embedImage_obeys (attached : Bool) (url alt : String) (style : RunStyle) :
    (embedImage env attached url alt style).Obeys R := by
  intro s
  rcases hload : loadImage env url s with ⟨t, e | ⟨content, mediaType⟩ | why⟩
  · rw [embedImage_of_unloaded attached alt style hload]
    have hidle : R t [Run.empty] t := hR.idle ⟨rfl, rfl, rfl, rfl⟩
    exact hR.append (hR.load hload) hidle
  · rcases hdraw : drawImage env url (imageKind url mediaType) content t with ⟨u, _ | d⟩
    · rw [embedImage_of_undrawn attached alt style hload hdraw]
      have hdrawn : R s [] u := hR.append (hR.load hload) (hR.draw hdraw)
      exact hR.append hdrawn (hR.idle (captionOutcome_idle env alt style _ u))
    · obtain ⟨log, hwritten⟩ := embedImage_of_drawn attached alt style hload hdraw
      have hdrawn : R s [Run.empty.append (.drawing d)] u :=
        hR.append (hR.load hload) (hR.draw hdraw)
      rw [hwritten, ← List.append_nil [Run.append _ _]]
      refine hR.append hdrawn (hR.idle ?_)
      cases attached <;> exact ⟨rfl, rfl, rfl, rfl⟩
  · rw [embedImage_of_missing attached alt style hload]
    exact hR.append (hR.load hload) (hR.idle (captionOutcome_idle env alt style _ t))

/-- However writing runs ends, it keeps a relation that loading and drawing keep. -/
theorem RunWriter.obeys {attached : Bool} {α : Type} {step : Step Run α}
    (h : RunWriter env attached step) : step.Obeys R := by
  induction h with
  | done a => exact Step.obeys_done hR.toSequential a
  | fail e => exact Step.obeys_fail hR.toSequential e
  | bind hfirst hnext ihfirst ihnext => exact ihfirst.bind hR.toSequential ihnext
  | @make change hchange =>
    intro s
    rcases hmade : change Run.empty with ⟨run, _ | e⟩ <;>
      rw [hmade] at hchange <;>
      simp only [Step.make, hmade] <;>
      exact hR.idle ⟨by simp [hchange], rfl, rfl, rfl⟩
  | note level message => exact fun s ↦ hR.idle ⟨rfl, rfl, rfl, rfl⟩
  | load url => exact fun s ↦ hR.load rfl
  | image url alt style => exact embedImage_obeys hR attached url alt style

end Recording

end Folio
