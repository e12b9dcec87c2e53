import Folio.Proofs.Alike
import Folio.Proofs.Relationships
import Folio.Proofs.Writer

/-!
# Growing states

Writing runs only adds to a state: relationships and images are appended, relationships stay
distinct, and as long as the network answers, only sources that can be loaded become known
(`RenderState.Grows`). A hyperlink that is taken back gives up relationships, but what is known about
sources stays known even then (`RenderState.Learns`, `Passage.write_learns`).
-/

set_option autoImplicit false
set_option relaxedAutoImplicit false

namespace Folio

open Word

/-- Surroundings with accepted settings, a network that answers and a registry that refuses no
relationship. -/
structure Surroundings.Steady (env : Surroundings) : Prop where
  accepted : env.settings.Accepted
  answers : env.web.Answers
  registers : ∀ n, env.faults.relate n = none

/-! ### Growing states -/

/-- A later state: nothing is lost, relationships stay distinct, and the sources that are known
loadable. -/
structure RenderState.Grows (env : Surroundings) (s t : RenderState) : Prop where
  relationships : s.relationships <+: t.relationships
  images : s.images <+: t.images
  distinct : s.relationships.Distinct → t.relationships.Distinct
  loadable : s.Loadable env → t.Loadable env

namespace RenderState.Grows

variable {env : Surroundings} {s t u : RenderState}

theorem refl (s : RenderState) : s.Grows env s :=
  ⟨List.prefix_refl _, List.prefix_refl _, id, id⟩

theorem trans (h : s.Grows env t) (hrest : t.Grows env u) : s.Grows env u :=
  ⟨h.relationships.trans hrest.relationships, h.images.trans hrest.images,
    hrest.distinct ∘ h.distinct, hrest.loadable ∘ h.loadable⟩

/-- Growing composes along sequences of steps. -/
theorem sequential {ω : Type} :
    Step.Sequential fun (s : RenderState) (_ : List ω) (t : RenderState) ↦ s.Grows env t :=
  ⟨refl, trans⟩

/-- A state with nothing new in it but its log, its numbers and its requests. -/
theorem of_eq (hrelationships : t.relationships = s.relationships) (himages : t.images = s.images) :
    s.Grows env t := by
  refine ⟨hrelationships ▸ List.prefix_refl _, himages ▸ List.prefix_refl _, ?_, ?_⟩
  · rw [hrelationships]
    exact id
  · unfold RenderState.Loadable
    rw [himages]
    exact id

/-- Loading makes a state grow. -/
theorem load (h : env.web.Answers) {url : String} {result : Except Failure Fetched}
    (hload : loadImage env url s = (t, result)) : s.Grows env t := by
  have hrelationships := relationships_of_load hload
  refine ⟨hrelationships ▸ List.prefix_refl _, images_of_load hload, ?_, fun hs ↦ ?_⟩
  · rw [hrelationships]
    exact id
  · have hloadable : (loadImage env url s).1.Loadable env := hs.load h
    rw [hload] at hloadable
    exact hloadable

/-- Drawing an image makes a state grow. -/
theorem draw {url : String} {kind : ImageKind} {content : Bytes} {drawing : Option Drawing}
    (hdraw : drawImage env url kind content s = (t, drawing)) : s.Grows env t := by
  rcases drawImage_spec env url kind content s with ⟨n, hspec, -⟩ | ⟨n, d, hspec, -, -⟩
  · rw [hspec] at hdraw
    cases hdraw
    exact of_eq rfl rfl
  · rw [hspec] at hdraw
    cases hdraw
    exact ⟨Relationships.prefix_register _ _ _ _, List.prefix_refl _,
      fun h ↦ h.register _ _ _, id⟩

/-- Idle runs, loads and drawings make a state grow. -/
theorem recording (h : env.web.Answers) :
    Recording env fun s _ t ↦ s.Grows env t where
  toSequential := sequential
  idle hidle := of_eq hidle.relationships hidle.images
  load := load h
  draw := draw

end RenderState.Grows

/-! ### Writing makes states grow -/

section Grow

variable {env : Surroundings}

/-- Writing a fragment makes a state grow. -/
theorem Fragment.write_grows (h : env.web.Answers) (attached : Bool) (f : Fragment) :
    (f.write env attached).Obeys fun s _ t ↦ s.Grows env t :=
  (RunWriter.fragment f).obeys (RenderState.Grows.recording h)

/-- Fragments make a state grow. -/
theorem forEach_write_grows (h : env.web.Answers) (attached : Bool) (fs : List Fragment)
    (s : RenderState) : s.Grows env (Step.forEach (Fragment.write env attached) fs s).state :=
  Step.obeys_forEach RenderState.Grows.sequential (fun f _ ↦ f.write_grows h attached) s

/-- The state in which the label of a link is written is a later state. -/
theorem grows_labelStart (env : Surroundings) (url : String) (s : RenderState) :
    s.Grows env (labelStart url s) := by
  obtain ⟨log, hlog⟩ := noteTarget_eq url s
  rw [labelStart, hlog]
  exact ⟨Relationships.prefix_relate _ _, List.prefix_refl _, fun h ↦ h.relate _, id⟩

end Grow

/-! ### What is known about sources -/

/-- A later state as far as sources go: what is known about them stays known, and only loadable ones
become known. -/
structure RenderState.Learns (env : Surroundings) (s t : RenderState) : Prop where
  images : s.images <+: t.images
  loadable : s.Loadable env → t.Loadable env

section Learns

variable {env : Surroundings}

theorem RenderState.Grows.learns {s t : RenderState} (h : s.Grows env t) : s.Learns env t :=
  ⟨h.images, h.loadable⟩

/-- Learning composes along sequences of steps. -/
theorem RenderState.Learns.sequential {ω : Type} :
    Step.Sequential fun (s : RenderState) (_ : List ω) (t : RenderState) ↦ s.Learns env t :=
  ⟨fun _ ↦ ⟨List.prefix_refl _, id⟩,
    fun h h' ↦ ⟨h.images.trans h'.images, h'.loadable ∘ h.loadable⟩⟩

theorem Fragment.write_learns (hanswers : env.web.Answers) (attached : Bool) (f : Fragment) :
    (f.write env attached).Obeys fun s _ t ↦ s.Learns env t :=
  fun s ↦ (f.write_grows hanswers attached s).learns

theorem writeLabel_learns (hanswers : env.web.Answers) (attached : Bool) (url : String)
    (children : List Inline) (style : RunStyle) :
    (writeLabel env attached url children style).Obeys fun s _ t ↦ s.Learns env t := by
  rw [writeLabel_eq]
  exact fun s ↦ (forEach_write_grows hanswers attached _ s).learns

/-- A hyperlink learns what its label learns, even if it is taken back. -/
theorem writeHyperlink_learns (url : String) {label : Step Run Unit}
    (hlabel : label.Obeys fun s _ t ↦ s.Learns env t) :
    (writeHyperlink env url label).Obeys fun s _ t ↦ s.Learns env t := by
  intro s
  have hstart := (grows_labelStart env url s).learns
  have hboth : s.Learns env (label (labelStart url s)).state :=
    ⟨hstart.images.trans (hlabel _).images, (hlabel _).loadable ∘ hstart.loadable⟩
  rcases writeHyperlink_cases env url label s with
    ⟨-, log, hlink⟩ | ⟨-, e, log, -, hlink⟩ | ⟨-, -, hlink⟩
  all_goals rw [hlink]
  · exact ⟨List.prefix_refl _, id⟩
  · exact ⟨hboth.images, hboth.loadable⟩
  · exact ⟨hboth.images, hboth.loadable⟩

theorem Segment.write_learns (hanswers : env.web.Answers) (x : Segment) :
    (x.write env).Obeys fun s _ t ↦ s.Learns env t := by
  cases x with
  | fragment f => exact f.write_learns hanswers true
  | link url children style =>
    refine (writeHyperlink_learns url (writeLabel_learns hanswers false url children _)).bind
      RenderState.Learns.sequential fun built ↦ ?_
    cases built
    · exact writeLabel_learns hanswers true url children style
    · exact Step.obeys_done RenderState.Learns.sequential ()

/-- However the writing of a passage ends, what was known about sources is known after it. -/
theorem Passage.write_learns (hanswers : env.web.Answers) (p : Passage) :
    (p.write env).Obeys fun s _ t ↦ s.Learns env t := by
  intro s
  have hcontent : s.Learns env (Step.forEach (Segment.write env)
      (p.segments env.settings) s).state :=
    Step.obeys_forEach RenderState.Learns.sequential (fun x _ ↦ x.write_learns hanswers) s
  unfold Passage.write writeFormatted
  rcases p.format env.settings Paragraph.empty with ⟨q, _ | e⟩
  · exact hcontent
  · exact ⟨List.prefix_refl _, id⟩

end Learns

end Folio
