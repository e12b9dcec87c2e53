import Folio.Proofs.Fragment
import Folio.Proofs.Image

/-!
# What fragments are written as

A fragment that can be written is written as one run (`Fragment.written_of_ok`): a text as a run
with the text in its style, a line break as itself, and an image as its drawing or as its caption,
where one without a source is always captioned (`Fragment.IsWrittenAs`).
-/

set_option autoImplicit false
set_option relaxedAutoImplicit false

namespace Folio

open Word

/-- A run that a fragment is written as. -/
def Fragment.IsWrittenAs (settings : Settings) (f : Fragment) (r : Run) : Prop :=
  match f with
  | .text content style => textRun settings content style Run.empty = (r, none)
  | .lineBreak => r = Run.empty.append .lineBreak
  | .image url alt style =>
    (isBlankText url = false ∧ ∃ d, r = Run.empty.append (.drawing d)) ∨
      captionRun settings alt style Run.empty = (r, none)

section Write

variable {env : Surroundings} {s : RenderState}

/-- A change that makes a run writes that run. -/
theorem written_make {change : Change Run} (h : (Step.make Run.empty change s).result = .ok ()) :
    ∃ r, change Run.empty = (r, none) ∧ (Step.make Run.empty change s).written = [r] := by
  rcases hmade : change Run.empty with ⟨r, _ | e⟩
  · exact ⟨r, rfl, by simp [Step.make, hmade]⟩
  · simp [Step.make, hmade] at h

/-- A caption for an image is one run. -/
theorem written_captionOutcome {alt remark : String} {style : RunStyle} {b : Bool}
    (h : (captionOutcome env alt style remark s).result = .ok b) :
    ∃ r, captionRun env.settings alt style Run.empty = (r, none) ∧
      (captionOutcome env alt style remark s).written = [r] := by
  rcases hmade : captionRun env.settings alt style Run.empty with ⟨r, _ | e⟩
  · exact ⟨r, rfl, by simp [captionOutcome, hmade]⟩
  · simp [captionOutcome, hmade] at h

/-- An image with a source is written as one run, with the drawing or the caption. -/
theorem written_embedImage {attached b : Bool} {url alt : String} {style : RunStyle}
    (hurl : isBlankText url = false)
    (h : (embedImage env attached url alt style s).result = .ok b) :
    ∃ r, (Fragment.image url alt style).IsWrittenAs env.settings r ∧
      (embedImage env attached url alt style s).written = [r] := by
  rcases hdraw : drawLoaded env url s with ⟨t, e | _ | d⟩
  · rw [embedImage_of_fault attached alt style hdraw] at h
    cases h
  · obtain ⟨remark, hembed⟩ := embedImage_of_captioned attached alt style hdraw
    rw [hembed] at h ⊢
    obtain ⟨r, hrun, hwritten⟩ := written_captionOutcome h
    exact ⟨r, .inr hrun, hwritten⟩
  · obtain ⟨log, hembed⟩ := embedImage_of_shown attached alt style hdraw
    exact ⟨_, .inl ⟨hurl, d, rfl⟩, by rw [hembed]⟩

/-- A fragment that can be written is written as one run. -/
theorem Fragment.written_of_ok {attached : Bool} {f : Fragment}
    (h : (f.write env attached s).result = .ok ()) :
    ∃ r, f.IsWrittenAs env.settings r ∧ (f.write env attached s).written = [r] := by
  cases f with
  | text content style => exact written_make h
  | lineBreak => exact ⟨_, rfl, rfl⟩
  | image url alt style =>
    rcases hurl : isBlankText url
    · simp only [Fragment.write, hurl, Bool.false_eq_true, ↓reduceIte] at h ⊢
      obtain ⟨b, hembed, -⟩ := Step.ok_of_bind_ok h
      obtain ⟨r, hr, hwritten⟩ := written_embedImage hurl hembed
      exact ⟨r, hr, by simp [Step.bind_of_ok hembed, hwritten]⟩
    · simp only [Fragment.write, hurl, ↓reduceIte] at h ⊢
      obtain ⟨r, hrun, hwritten⟩ := written_make h
      exact ⟨r, .inr hrun, hwritten⟩

end Write

end Folio
