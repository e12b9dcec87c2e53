import Folio.Proofs.Fragment
import Folio.Proofs.Image

/-!
# Writing hyperlinks

What writing a hyperlink does, case by case: its target is refused (`writeHyperlink_of_refused`),
its label cannot be written and everything is taken back (`writeHyperlink_of_failed`), or it is
built (`writeHyperlink_of_built`); there is no fourth case (`writeHyperlink_cases`). Nothing that is
written into a paragraph looks at the depth of lists (`Segment.ignoresDepth_write`).
-/

set_option autoImplicit false
set_option relaxedAutoImplicit false

namespace Folio

open Word

/-- The state in which the label of a hyperlink is written: its target has a relationship. -/
def labelStart (url : String) (s : RenderState) : RenderState :=
  { noteTarget url s with
    registrations := s.registrations + 1
    relationships := (s.relationships.relate (Url.resolved url)).1 }

/-- The number of the relationship to the target of a link. -/
def targetId (url : String) (s : RenderState) : Nat :=
  (s.relationships.relate (Url.resolved url)).2

section Hyperlink

variable {env : Surroundings} {url : String} {label : Step Run Unit} {s : RenderState}

/-- Noting a target changes nothing but the log. -/
theorem noteTarget_eq (url : String) (s : RenderState) :
    ∃ log, noteTarget url s = { s with log := log } := by
  unfold noteTarget
  split
  · exact ⟨s.log, rfl⟩
  · exact ⟨_, rfl⟩

/-- A hyperlink whose target is refused writes nothing. -/
theorem writeHyperlink_of_refused (h : (env.faults.relate s.registrations).isSome) :
    ∃ log, writeHyperlink env url label s =
      ⟨[], { s with registrations := s.registrations + 1, log := log }, .ok false⟩ := by
  obtain ⟨log, hlog⟩ := noteTarget_eq url s
  obtain ⟨message, hmessage⟩ := Option.isSome_iff_exists.mp h
  unfold writeHyperlink askRegistry
  rw [hlog]
  simp only [hmessage, Option.map_some]
  exact ⟨_, rfl⟩

/-- A hyperlink whose label cannot be written is taken back. -/
theorem writeHyperlink_of_failed (h : env.faults.relate s.registrations = none) {e : Failure}
    (hlabel : (label (labelStart url s)).result = .error e) :
    ∃ log, writeHyperlink env url label s =
      ⟨[], { takeBack (targetId url s) (label (labelStart url s)).written
          (label (labelStart url s)).state with log := log }, .ok false⟩ := by
  obtain ⟨log, hlog⟩ := noteTarget_eq url s
  unfold labelStart targetId at *
  unfold writeHyperlink askRegistry
  rw [hlog] at hlabel ⊢
  simp only [h, Option.map_none, hlabel]
  exact ⟨_, rfl⟩

/-- A hyperlink whose label can be written becomes a piece of the paragraph. -/
theorem writeHyperlink_of_built (h : env.faults.relate s.registrations = none)
    (hlabel : (label (labelStart url s)).result = .ok ()) :
    writeHyperlink env url label s =
      ⟨[.hyperlink (targetId url s) (label (labelStart url s)).written],
        { (label (labelStart url s)).state.attachDrawing
            (lastDrawingOf (label (labelStart url s)).written) with
          linked := (label (labelStart url s)).state.linked ++ [targetId url s] }, .ok true⟩ := by
  obtain ⟨log, hlog⟩ := noteTarget_eq url s
  unfold labelStart targetId at *
  unfold writeHyperlink askRegistry
  rw [hlog] at hlabel ⊢
  simp only [h, Option.map_none, hlabel]
  rfl

/-- The target of a hyperlink is refused, its label is taken back, or it is built. -/
theorem writeHyperlink_cases (env : Surroundings) (url : String) (label : Step Run Unit)
    (s : RenderState) :
    ((env.faults.relate s.registrations).isSome = true ∧ ∃ log, writeHyperlink env url label s =
      ⟨[], { s with registrations := s.registrations + 1, log := log }, .ok false⟩) ∨
    (env.faults.relate s.registrations = none ∧
      ∃ e log, (label (labelStart url s)).result = .error e ∧ writeHyperlink env url label s =
        ⟨[], { takeBack (targetId url s) (label (labelStart url s)).written
          (label (labelStart url s)).state with log := log }, .ok false⟩) ∨
    (env.faults.relate s.registrations = none ∧ (label (labelStart url s)).result = .ok () ∧
      writeHyperlink env url label s =
        ⟨[.hyperlink (targetId url s) (label (labelStart url s)).written],
          { (label (labelStart url s)).state.attachDrawing
              (lastDrawingOf (label (labelStart url s)).written) with
            linked := (label (labelStart url s)).state.linked ++ [targetId url s] },
          .ok true⟩) := by
  by_cases hrefused : (env.faults.relate s.registrations).isSome = true
  · exact .inl ⟨hrefused, writeHyperlink_of_refused hrefused⟩
  · have hasked : env.faults.relate s.registrations = none := by simpa using hrefused
    rcases hlabel : (label (labelStart url s)).result with e | ⟨⟩
    · obtain ⟨log, hlink⟩ := writeHyperlink_of_failed hasked hlabel
      exact .inr (.inl ⟨hasked, e, log, rfl, hlink⟩)
    · exact .inr (.inr ⟨hasked, rfl, writeHyperlink_of_built hasked hlabel⟩)

end Hyperlink

/-! ### The depth of lists -/

/-- Writing a fragment does not look at the depth of lists. -/
theorem Fragment.ignoresDepth_write (env : Surroundings) (attached : Bool) (f : Fragment) :
    (f.write env attached).IgnoresDepth := by
  cases f with
  | text content style => exact Step.ignoresDepth_make _ _
  | lineBreak => exact fun _ _ ↦ rfl
  | image url alt style =>
    rw [Fragment.write]
    split
    · exact Step.ignoresDepth_make _ _
    · exact (ignoresDepth_embedImage env attached url alt style).bind fun _ ↦
        Step.ignoresDepth_done ()

theorem ignoresDepth_writeLabel (env : Surroundings) (attached : Bool) (url : String)
    (children : List Inline) (style : RunStyle) :
    (writeLabel env attached url children style).IgnoresDepth := by
  rw [writeLabel_eq]
  exact Step.ignoresDepth_forEach (Fragment.ignoresDepth_write env attached) _

/-- Writing a hyperlink does not look at the depth of lists if writing its label does not. -/
theorem ignoresDepth_writeHyperlink (env : Surroundings) (url : String) {label : Step Run Unit}
    (hlabel : label.IgnoresDepth) : (writeHyperlink env url label).IgnoresDepth := by
  intro s n
  have hnote : noteTarget url (s.atDepth n) = (noteTarget url s).atDepth n := by
    unfold noteTarget
    split <;> rfl
  unfold writeHyperlink
  rw [hnote]
  generalize noteTarget url s = t
  have hask : askRegistry env (t.atDepth n) =
      ((askRegistry env t).1.atDepth n, (askRegistry env t).2) := rfl
  rw [hask]
  rcases askRegistry env t with ⟨u, _ | refusal⟩
  · have hstart : { u.atDepth n with
        relationships := ((u.atDepth n).relationships.relate (Url.resolved url)).1 } =
        ({ u with relationships := (u.relationships.relate (Url.resolved url)).1 } :
          RenderState).atDepth n := rfl
    simp only [hstart, hlabel _ n]
    rcases label { u with relationships := (u.relationships.relate (Url.resolved url)).1 } with
      ⟨written, v, e | a⟩ <;> rfl
  · rfl

/-- Writing a segment does not look at the depth of lists. -/
theorem Segment.ignoresDepth_write (env : Surroundings) (x : Segment) :
    (x.write env).IgnoresDepth := by
  cases x with
  | fragment f => exact (f.ignoresDepth_write env true).mapWritten _
  | link url children style =>
    refine (ignoresDepth_writeHyperlink env url
      (ignoresDepth_writeLabel env false url children _)).bind fun built ↦ ?_
    cases built
    · exact (ignoresDepth_writeLabel env true url children style).mapWritten _
    · exact Step.ignoresDepth_done ()

end Folio
