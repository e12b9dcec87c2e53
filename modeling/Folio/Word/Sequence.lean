/-!
# Properties in schema order

The properties of a run, a paragraph, a table or a cell are a sequence of elements whose order the
schema of the document format prescribes. A new property is put in front of the first one that has
to follow it; a property that is there already is changed in place.
-/

set_option autoImplicit false
set_option relaxedAutoImplicit false

namespace Folio.Word

variable {α : Type}

/-- A sequence with `x` in front of the first element that has to follow it, at the end if none has
to. -/
def insertBefore (follows : α → Bool) (x : α) : List α → List α
  | [] => [x]
  | y :: ys => if follows y then x :: y :: ys else y :: insertBefore follows x ys

/-- A sequence with its first element of a kind replaced. -/
def replaceFirst (isKind : α → Bool) (x : α) : List α → List α
  | [] => []
  | y :: ys => if isKind y then x :: ys else y :: replaceFirst isKind x ys

/-- A sequence in which `x` is the element of its kind: in place of the one that is there, or in
front of those that have to follow it. -/
def putProperty (isKind follows : α → Bool) (x : α) (props : List α) : List α :=
  if props.any isKind then replaceFirst isKind x props else insertBefore follows x props

@[simp] theorem insertBefore_nil (follows : α → Bool) (x : α) :
    insertBefore follows x [] = [x] := rfl

theorem insertBefore_cons (follows : α → Bool) (x y : α) (ys : List α) :
    insertBefore follows x (y :: ys) =
      if follows y then x :: y :: ys else y :: insertBefore follows x ys := rfl

theorem mem_insertBefore (follows : α → Bool) (x z : α) (props : List α) :
    z ∈ insertBefore follows x props ↔ z = x ∨ z ∈ props := by
  induction props with
  | nil => simp
  | cons y ys ih =>
    rw [insertBefore_cons]
    split
    · simp
    · simp [ih, or_left_comm]

/-- A new element stands between those that it follows and those that follow it. -/
theorem insertBefore_between {follows : α → Bool} (x : α) {lower higher : List α}
    (hlower : ∀ y ∈ lower, follows y = false) (hhigher : ∀ y ∈ higher, follows y = true) :
    insertBefore follows x (lower ++ higher) = lower ++ x :: higher := by
  induction lower with
  | nil =>
    cases higher with
    | nil => rfl
    | cons y ys => simp [insertBefore_cons, hhigher y List.mem_cons_self]
  | cons y ys ih =>
    obtain ⟨hy, hys⟩ := List.forall_mem_cons.mp hlower
    simp [insertBefore_cons, hy, ih hys]

/-- The first element of a kind is replaced where it stands. -/
theorem replaceFirst_between {isKind : α → Bool} (x : α) {y : α} {lower : List α}
    (hlower : ∀ z ∈ lower, isKind z = false) (hy : isKind y = true) (higher : List α) :
    replaceFirst isKind x (lower ++ y :: higher) = lower ++ x :: higher := by
  induction lower with
  | nil => simp [replaceFirst, hy]
  | cons z zs ih =>
    obtain ⟨hz, hzs⟩ := List.forall_mem_cons.mp hlower
    simp [replaceFirst, hz, ih hzs]

theorem mem_replaceFirst {isKind : α → Bool} {x z : α} {props : List α}
    (h : z ∈ replaceFirst isKind x props) : z = x ∨ z ∈ props := by
  induction props with
  | nil => cases h
  | cons y ys ih =>
    rw [replaceFirst] at h
    split at h
    · exact (List.mem_cons.mp h).imp_right (List.mem_cons_of_mem y)
    · rcases List.mem_cons.mp h with rfl | hz
      · exact .inr List.mem_cons_self
      · exact (ih hz).imp_right (List.mem_cons_of_mem y)

theorem mem_putProperty {isKind follows : α → Bool} {x z : α} {props : List α}
    (h : z ∈ putProperty isKind follows x props) : z = x ∨ z ∈ props := by
  unfold putProperty at h
  split at h
  · exact mem_replaceFirst h
  · exact (mem_insertBefore follows x z props).mp h

end Folio.Word
