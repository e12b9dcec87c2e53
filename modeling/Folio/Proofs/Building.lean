import Folio.Proofs.Flattening
import Folio.Proofs.Writer
import Folio.Render.Session

/-!
# Building documents

A document is built from two kinds of steps: runs that are written into a paragraph, and hyperlinks,
which are built, refused or taken back. A relation between the state before, the relationships of the
hyperlinks that became part of the document, and the state after that composes and holds of these two
(`Building`) holds of inline content, of passages and of blocks, however writing them ends
(`Building.writeItems`, `Building.passage`, `Building.writeBlock`). If the hyperlinks do not matter to
it, then it holds of every step of a session (`Session.step_of_building`).
-/

set_option autoImplicit false
set_option relaxedAutoImplicit false

namespace Folio

open Word

/-- A relation that composes along sequences of steps, in a form where pieces bring parts. -/
theorem Step.Sequential.flatMap {ω β : Type} {R : RenderState → List β → RenderState → Prop}
    (hR : Step.Sequential R) (parts : ω → List β) :
    Step.Sequential fun s (ws : List ω) t ↦ R s (ws.flatMap parts) t where
  nil s := hR.nil s
  append h h' := by
    rw [List.flatMap_append]
    exact hR.append h h'

/-- A relation between the state before, the relationships of the hyperlinks that became part of the
document, and the state after that composes and holds of runs in the document and of hyperlinks. -/
structure Building (env : Surroundings) (R : RenderState → List Nat → RenderState → Prop) : Prop
    extends Step.Sequential R where
  runs : ∀ {α : Type} {step : Step Run α}, RunWriter env true step → ∀ s, R s [] (step s).state
  hyperlink : ∀ (url : String) {label : Step Run Unit}, RunWriter env false label →
    (writeHyperlink env url label).Obeys
      fun s ws t ↦ R s (ws.flatMap ParagraphItem.hyperlinks) t

namespace Building

variable {env : Surroundings} {R : RenderState → List Nat → RenderState → Prop}
  (hR : Building env R)

include hR

/-- Runs in a paragraph keep the relation, and bring no hyperlink. -/
theorem inParagraph {α : Type} {step : Step Run α} (h : RunWriter env true step) :
    (step.mapWritten ParagraphItem.run).Obeys
      fun s ws t ↦ R s (ws.flatMap ParagraphItem.hyperlinks) t := by
  intro s
  have hids (runs : List Run) :
      (runs.map ParagraphItem.run).flatMap ParagraphItem.hyperlinks = [] := by
    simp [List.flatMap_map, ParagraphItem.hyperlinks]
  show R s (((step s).written.map ParagraphItem.run).flatMap ParagraphItem.hyperlinks)
    (step s).state
  rw [hids]
  exact hR.runs h s

/-- A segment keeps the relation: where its hyperlink is not built, it is written as runs. -/
theorem segment (x : Segment) :
    (x.write env).Obeys fun s ws t ↦ R s (ws.flatMap ParagraphItem.hyperlinks) t := by
  have hitems := hR.toSequential.flatMap ParagraphItem.hyperlinks
  cases x with
  | fragment f => exact hR.inParagraph (.fragment f)
  | link url children style =>
    refine (hR.hyperlink url (.writeLabel url children _)).bind hitems fun built ↦ ?_
    cases built
    · exact hR.inParagraph (.writeLabel url children style)
    · exact Step.obeys_done hitems ()

/-- Inline content keeps the relation. -/
theorem writeItems (content : List Inline) (style : RunStyle) :
    (writeItems env content style).Obeys
      fun s ws t ↦ R s (ws.flatMap ParagraphItem.hyperlinks) t := by
  rw [writeItems_eq]
  exact Step.obeys_forEach (hR.toSequential.flatMap ParagraphItem.hyperlinks)
    fun x _ ↦ hR.segment x

/-- A passage keeps the relation. -/
theorem passage (p : Passage) :
    (p.write env).Obeys fun s ws t ↦ R s (ws.flatMap Paragraph.hyperlinks) t := by
  intro s
  have hcontent : R s ((Step.forEach (Segment.write env)
      (p.segments env.settings) s).written.flatMap ParagraphItem.hyperlinks)
      (Step.forEach (Segment.write env) (p.segments env.settings) s).state :=
    Step.obeys_forEach (hR.toSequential.flatMap ParagraphItem.hyperlinks)
      (fun x _ ↦ hR.segment x) s
  have hleaves := p.format_leaves env.settings Paragraph.empty
  unfold Passage.write writeFormatted
  rcases hformat : p.format env.settings Paragraph.empty with ⟨q, _ | e⟩
  all_goals
    rw [hformat] at hleaves
    have hnone : q.hyperlinks = [] := congrArg (·.flatMap ParagraphItem.hyperlinks) hleaves
  · have hids (items : List ParagraphItem) :
        [q.append items].flatMap Paragraph.hyperlinks = items.flatMap ParagraphItem.hyperlinks := by
      simp [hnone]
    simp only [Step.gather, hids]
    exact hcontent
  · simp only [List.flatMap_cons, List.flatMap_nil, hnone]
    exact hR.nil s

/-- Blocks keep the relation. -/
theorem writeBlock (b : Block) :
    (writeBlock env b).Obeys fun s ws t ↦ R s (hyperlinksOf ws) t := by
  intro s
  obtain ⟨-, hstate, n, hwritten, -⟩ := writeBlock_flattens env s.listDepth b s rfl
  have hflat : R s ((writePassages env (b.passages (s.listDepth + 1)) s).written.flatMap
      Paragraph.hyperlinks) (writePassages env (b.passages (s.listDepth + 1)) s).state :=
    Step.obeys_forEach (hR.toSequential.flatMap Paragraph.hyperlinks) (fun p _ ↦ hR.passage p) s
  have hempty : (List.replicate n Paragraph.empty).flatMap Paragraph.hyperlinks = [] := by
    simp [List.flatMap_replicate]
  have hids : hyperlinksOf (Folio.writeBlock env b s).written =
      (writePassages env (b.passages (s.listDepth + 1)) s).written.flatMap
        Paragraph.hyperlinks := by
    rw [hyperlinksOf, paragraphsOf, hwritten, List.flatMap_append, hempty, List.append_nil]
  show R s (hyperlinksOf (Folio.writeBlock env b s).written) (Folio.writeBlock env b s).state
  rw [hids, hstate]
  exact hflat

end Building

/-! ### Sessions -/

namespace Session

/-- The label of a link of a session is written by writing runs. -/
theorem linkLabel_writer (env : Surroundings) (texts : List String) (content : List Inline)
    (style : RunStyle) (failing : Bool) :
    RunWriter env false (linkLabel env texts content style failing) := by
  have htexts : RunWriter env false
      (Step.forEach (fun t ↦ Step.make Run.empty (Run.write t)) texts) :=
    .forEach fun t _ ↦ .make (write_leaves_drawings t Run.empty)
  refine htexts.bind fun _ ↦ (RunWriter.writeRuns content style).bind fun _ ↦ ?_
  cases failing
  · exact .done ()
  · exact .fail _

/-- What a step of a session leads to is what its writing leads to. -/
theorem intoParagraph_state {α : Type} (x : Session) (continued : Bool)
    (step : Step ParagraphItem α) :
    (x.intoParagraph continued step).1.state = (step x.state).state := by
  unfold intoParagraph
  split <;> rfl

/-- A step of a session keeps a relation between states that building keeps, and changes of the
depth of lists. -/
theorem step_of_building {env : Surroundings} {R : RenderState → RenderState → Prop}
    (hR : ∀ web, Building { env with web := web } fun s _ t ↦ R s t)
    (hdepth : ∀ s n, R s (s.atDepth n)) (x : Session) (s : SessionStep) :
    R x.state (x.step env s).1.state := by
  have hbuilding := hR x.web
  cases s with
  | block b => exact hbuilding.writeBlock b x.state
  | inlines content style runsOnly continued =>
    simp only [step, intoParagraph_state]
    cases runsOnly
    · exact hbuilding.writeItems content style x.state
    · exact hbuilding.inParagraph (.writeRuns content style) x.state
  | link url label content style failing continued =>
    simp only [step, intoParagraph_state]
    exact hbuilding.hyperlink url (linkLabel_writer _ _ _ _ _) x.state
  | image url alt style continued =>
    simp only [step, intoParagraph_state]
    exact hbuilding.inParagraph (.image url alt style) x.state
  | load url => exact hbuilding.runs (.load url) x.state
  | depth value => exact hdepth x.state value
  | network web => exact hbuilding.nil x.state

end Session

end Folio
