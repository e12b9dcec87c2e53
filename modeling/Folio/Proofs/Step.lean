import Folio.Render.Step
import Mathlib.Data.List.Forall2

/-!
# Reasoning about steps

Steps in sequence are associative, and a step for every element of a list splits where the list does
(`Step.bind_assoc`, `Step.forEach_append`). A relation between the state before, the pieces written
and the state after is sequential if it holds of nothing and composes (`Sequential`). A step that
obeys such a relation keeps it however it ends (`Step.Obeys`), and one that yields it keeps it
whenever it succeeds (`Step.Yields`); both pass from steps to their sequences. Most steps do not
look at the depth of lists at all (`Step.IgnoresDepth`).
-/

set_option autoImplicit false
set_option relaxedAutoImplicit false

namespace Folio

/-- The state at another depth of lists. -/
def RenderState.atDepth (n : Int) (s : RenderState) : RenderState := { s with listDepth := n }

@[simp] theorem RenderState.atDepth_atDepth (m n : Int) (s : RenderState) :
    (s.atDepth m).atDepth n = s.atDepth n := rfl

@[simp] theorem RenderState.atDepth_listDepth (s : RenderState) :
    s.atDepth s.listDepth = s := rfl

@[simp] theorem RenderState.listDepth_atDepth (n : Int) (s : RenderState) :
    (s.atDepth n).listDepth = n := rfl

namespace Step

variable {ω ω' α β γ : Type}

/-! ### Sequences -/

@[simp] theorem pure_eq_done (a : α) : (pure a : Step ω α) = done a := rfl

@[simp] theorem monad_bind_eq (first : Step ω α) (next : α → Step ω β) :
    first >>= next = bind first next := rfl

/-- A step that returns a value at once is no more than its continuation. -/
@[simp] theorem done_bind (a : α) (next : α → Step ω β) : bind (done a) next = next a := by
  funext s
  simp [bind]

/-- Nothing after a step is the step. -/
@[simp] theorem bind_done (step : Step ω Unit) : (bind step fun _ ↦ done ()) = step := by
  funext s
  rcases hstep : step s with ⟨written, state, e | a⟩ <;> simp [bind, hstep]

/-- Steps in sequence may be grouped either way. -/
theorem bind_assoc (first : Step ω α) (second : α → Step ω β) (third : β → Step ω γ) :
    bind (bind first second) third = bind first fun a ↦ bind (second a) third := by
  funext s
  rcases hfirst : (first s).result with e | a
  · have hboth : (bind first second s).result = .error e := by rw [bind_of_error hfirst]
    rw [bind_of_error hboth, bind_of_error hfirst, bind_of_error hfirst]
  · rcases hsecond : (second a (first s).state).result with e | b
    · have hboth : (bind first second s).result = .error e := by rw [bind_of_ok hfirst, hsecond]
      rw [bind_of_error hboth, bind_of_ok hfirst, bind_of_ok hfirst, bind_of_error hsecond]
    · have hboth : (bind first second s).result = .ok b := by rw [bind_of_ok hfirst, hsecond]
      rw [bind_of_ok hboth, bind_of_ok hfirst, bind_of_ok hfirst, bind_of_ok hsecond,
        List.append_assoc]

@[simp] theorem forEach_nil (step : α → Step ω Unit) : forEach step [] = done () := rfl

@[simp] theorem forEach_cons (step : α → Step ω Unit) (a : α) (as : List α) :
    forEach step (a :: as) = bind (step a) fun _ ↦ forEach step as := rfl

/-- The steps for two lists are those for the first and then those for the second. -/
theorem forEach_append (step : α → Step ω Unit) (as bs : List α) :
    forEach step (as ++ bs) = bind (forEach step as) fun _ ↦ forEach step bs := by
  induction as with
  | nil => rw [List.nil_append, forEach_nil, done_bind]
  | cons a as ih => simp only [List.cons_append, forEach_cons, ih, bind_assoc]

/-- The steps for one element are the step for it. -/
theorem forEach_singleton (step : α → Step ω Unit) (a : α) : forEach step [a] = step a := by
  rw [forEach_cons, forEach_nil, bind_done]

/-- Pieces may be brought into another form before or after steps are put in sequence. -/
theorem mapWritten_bind (f : ω → ω') (first : Step ω α) (next : α → Step ω β) :
    mapWritten f (bind first next) = bind (mapWritten f first) fun a ↦ mapWritten f (next a) := by
  funext s
  rcases hfirst : first s with ⟨written, state, e | a⟩ <;> simp [mapWritten, bind, hfirst]

/-- The steps for a list with their pieces in another form. -/
theorem mapWritten_forEach (f : ω → ω') (step : α → Step ω Unit) (as : List α) :
    mapWritten f (forEach step as) = forEach (fun a ↦ mapWritten f (step a)) as := by
  induction as with
  | nil => rfl
  | cons a as ih => rw [forEach_cons, forEach_cons, mapWritten_bind, ih]

/-- The steps for the images of a list. -/
theorem forEach_map (f : β → α) (step : α → Step ω Unit) (bs : List β) :
    forEach step (bs.map f) = forEach (fun b ↦ step (f b)) bs := by
  induction bs with
  | nil => rfl
  | cons b bs ih => rw [List.map_cons, forEach_cons, forEach_cons, ih]

/-- A sequence succeeds only if both of its steps do. -/
theorem ok_of_bind_ok {first : Step ω α} {next : α → Step ω β} {s : RenderState} {b : β}
    (h : (bind first next s).result = .ok b) :
    ∃ a, (first s).result = .ok a ∧ (next a (first s).state).result = .ok b := by
  rcases hfirst : (first s).result with e | a
  · rw [bind_of_error hfirst] at h
    cases h
  · rw [bind_of_ok hfirst] at h
    exact ⟨a, rfl, h⟩

/-- Nothing more is written after a step that succeeds. -/
theorem leaving_of_ok {rest : List ω} {step : Step ω α} {s : RenderState} {a : α}
    (h : (leaving rest step s).result = .ok a) : leaving rest step s = step s := by
  rcases hstep : step s with ⟨written, state, e | b⟩
  · simp [leaving, hstep] at h
  · simp [leaving, hstep]

/-- A piece is made without failure exactly if the change that makes it does not stop. -/
theorem make_result_iff {start : ω} {change : Change ω} {s : RenderState} :
    (make start change s).result = .ok () ↔ (change start).2 = none := by
  unfold make
  rcases change start with ⟨piece, _ | e⟩ <;> simp

/-! ### Relations that compose -/

/-- A relation between the state before, the pieces written and the state after that holds of
writing nothing and composes. -/
structure Sequential (R : RenderState → List ω → RenderState → Prop) : Prop where
  nil : ∀ s, R s [] s
  append : ∀ {s t u v w}, R s v t → R t w u → R s (v ++ w) u

/-- A step keeps a relation however it ends. -/
def Obeys (R : RenderState → List ω → RenderState → Prop) (step : Step ω α) : Prop :=
  ∀ s, R s (step s).written (step s).state

/-- A step keeps a relation whenever it succeeds. -/
def Yields (R : RenderState → List ω → RenderState → Prop) (step : Step ω α) : Prop :=
  ∀ s a, (step s).result = .ok a → R s (step s).written (step s).state

section Sequential

variable {R : RenderState → List ω → RenderState → Prop}

theorem Obeys.yields {step : Step ω α} (h : Obeys R step) : Yields R step := fun s _ _ ↦ h s

theorem obeys_done (hR : Sequential R) (a : α) : Obeys R (done a : Step ω α) := fun s ↦ hR.nil s

theorem obeys_fail (hR : Sequential R) (e : Failure) : Obeys R (fail e : Step ω α) :=
  fun s ↦ hR.nil s

theorem Obeys.bind (hR : Sequential R) {first : Step ω α} {next : α → Step ω β}
    (hfirst : Obeys R first) (hnext : ∀ a, Obeys R (next a)) : Obeys R (bind first next) := by
  intro s
  rcases hresult : (first s).result with e | a
  · rw [bind_of_error hresult]
    exact hfirst s
  · rw [bind_of_ok hresult]
    exact hR.append (hfirst s) (hnext a _)

theorem obeys_forEach (hR : Sequential R) {step : α → Step ω Unit} {as : List α}
    (h : ∀ a ∈ as, Obeys R (step a)) : Obeys R (forEach step as) := by
  induction as with
  | nil => exact obeys_done hR ()
  | cons a as ih =>
    exact (h a (by simp)).bind hR fun _ ↦ ih fun b hb ↦ h b (List.mem_cons_of_mem a hb)

theorem Yields.bind (hR : Sequential R) {first : Step ω α} {next : α → Step ω β}
    (hfirst : Yields R first) (hnext : ∀ a, Yields R (next a)) : Yields R (bind first next) := by
  intro s b hb
  obtain ⟨a, ha, hnb⟩ := ok_of_bind_ok hb
  rw [bind_of_ok ha]
  exact hR.append (hfirst s a ha) (hnext a _ b hnb)

theorem yields_forEach (hR : Sequential R) {step : α → Step ω Unit} {as : List α}
    (h : ∀ a ∈ as, Yields R (step a)) : Yields R (forEach step as) := by
  induction as with
  | nil => exact (obeys_done hR ()).yields
  | cons a as ih =>
    exact (h a (by simp)).bind hR fun _ ↦ ih fun b hb ↦ h b (List.mem_cons_of_mem a hb)

end Sequential

/-! ### What a step writes -/

/-- Everything that a step writes has a property, however it ends. -/
def WritesOnly (P : ω → Prop) (step : Step ω α) : Prop :=
  step.Obeys fun _ written _ ↦ ∀ x ∈ written, P x

section WritesOnly

variable {P : ω → Prop}

theorem sequential_forall (P : ω → Prop) :
    Sequential fun _ (written : List ω) _ ↦ ∀ x ∈ written, P x where
  nil _ := List.forall_mem_nil P
  append hv hw := List.forall_mem_append.mpr ⟨hv, hw⟩

theorem writesOnly_done (a : α) : WritesOnly P (done a) := obeys_done (sequential_forall P) a

theorem WritesOnly.bind {first : Step ω α} {next : α → Step ω β} (hfirst : WritesOnly P first)
    (hnext : ∀ a, WritesOnly P (next a)) : WritesOnly P (bind first next) :=
  Obeys.bind (sequential_forall P) hfirst hnext

theorem writesOnly_forEach {step : α → Step ω Unit} {as : List α}
    (h : ∀ a ∈ as, WritesOnly P (step a)) : WritesOnly P (forEach step as) :=
  obeys_forEach (sequential_forall P) h

end WritesOnly

/-- Steps for a list write what is related to the parts of its elements, by a relation that appends,
if each step does in the states that have a property, and the steps keep the property. -/
theorem relates_forEach {I : RenderState → Prop} {R : List β → List γ → Prop} (hnil : R [] [])
    (happend : ∀ {bs cs bs' cs'}, R bs cs → R bs' cs' → R (bs ++ bs') (cs ++ cs'))
    {parts : α → List β} {view : ω → List γ} {step : α → Step ω Unit} {as : List α}
    (hkeep : ∀ a ∈ as, Obeys (fun s _ t ↦ I s → I t) (step a))
    (h : ∀ a ∈ as, ∀ s, I s → (step a s).result = .ok () →
      R (parts a) ((step a s).written.flatMap view))
    {s : RenderState} (hs : I s) (hok : (forEach step as s).result = .ok ()) :
    R (as.flatMap parts) ((forEach step as s).written.flatMap view) := by
  induction as generalizing s with
  | nil => exact hnil
  | cons a as ih =>
    obtain ⟨⟨⟩, hfirst, hrest⟩ := ok_of_bind_ok hok
    rw [forEach_cons, bind_of_ok hfirst, List.flatMap_cons, List.flatMap_append]
    exact happend (h a List.mem_cons_self s hs hfirst)
      (ih (fun b hb ↦ hkeep b (List.mem_cons_of_mem a hb))
        (fun b hb ↦ h b (List.mem_cons_of_mem a hb)) (hkeep a List.mem_cons_self s hs) hrest)

/-- Steps for a list write what is related, one for one, to the parts of its elements. -/
theorem forall₂_forEach {I : RenderState → Prop} {S : β → γ → Prop} {parts : α → List β}
    {view : ω → List γ} {step : α → Step ω Unit} {as : List α}
    (hkeep : ∀ a ∈ as, Obeys (fun s _ t ↦ I s → I t) (step a))
    (h : ∀ a ∈ as, ∀ s, I s → (step a s).result = .ok () →
      List.Forall₂ S (parts a) ((step a s).written.flatMap view))
    {s : RenderState} (hs : I s) (hok : (forEach step as s).result = .ok ()) :
    List.Forall₂ S (as.flatMap parts) ((forEach step as s).written.flatMap view) :=
  relates_forEach (R := List.Forall₂ S) .nil (fun hfirst hrest ↦ List.rel_append hfirst hrest)
    hkeep h hs hok

/-- Steps for a list succeed exactly if they do for each element, where that depends on the element
alone in all states that have a property, and the steps keep the property. -/
theorem forEach_eq_ok_iff {I : RenderState → Prop} {P : α → Prop} {step : α → Step ω Unit}
    {as : List α} (hkeep : ∀ a ∈ as, Obeys (fun s _ t ↦ I s → I t) (step a))
    (h : ∀ a ∈ as, ∀ s, I s → ((step a s).result = .ok () ↔ P a)) {s : RenderState} (hs : I s) :
    (forEach step as s).result = .ok () ↔ ∀ a ∈ as, P a := by
  induction as generalizing s with
  | nil => simp
  | cons a as ih =>
    have hfirst := h a List.mem_cons_self s hs
    have hrest := ih (fun b hb ↦ hkeep b (List.mem_cons_of_mem a hb))
      (fun b hb ↦ h b (List.mem_cons_of_mem a hb)) (hkeep a List.mem_cons_self s hs)
    rw [List.forall_mem_cons, ← hfirst, ← hrest, forEach_cons]
    rcases hresult : (step a s).result with e | ⟨⟩
    · rw [bind_of_error hresult]
      simp
    · rw [bind_of_ok hresult]
      simp

/-! ### Steps that do not look at the depth of lists -/

/-- A step does the same at every depth of lists, and leaves the depth as it is. -/
def IgnoresDepth (step : Step ω α) : Prop :=
  ∀ s n, step (s.atDepth n) = ⟨(step s).written, (step s).state.atDepth n, (step s).result⟩

/-- A step that does not look at the depth of lists leaves it as it is. -/
theorem IgnoresDepth.listDepth_eq {step : Step ω α} (h : IgnoresDepth step) (s : RenderState) :
    (step s).state.listDepth = s.listDepth := by
  have hs := congrArg (fun o ↦ o.state.listDepth) (h s s.listDepth)
  simpa using hs

theorem ignoresDepth_done (a : α) : IgnoresDepth (done a : Step ω α) := fun _ _ ↦ rfl

theorem IgnoresDepth.bind {first : Step ω α} {next : α → Step ω β} (hfirst : IgnoresDepth first)
    (hnext : ∀ a, IgnoresDepth (next a)) : IgnoresDepth (bind first next) := by
  intro s n
  have hs := hfirst s n
  rcases hresult : (first s).result with e | a
  · have hmoved : (first (s.atDepth n)).result = .error e := by rw [hs, hresult]
    rw [bind_of_error hmoved, bind_of_error hresult, hs]
  · have hmoved : (first (s.atDepth n)).result = .ok a := by rw [hs, hresult]
    rw [bind_of_ok hmoved, bind_of_ok hresult, hs, hnext a (first s).state n]

theorem ignoresDepth_forEach {step : α → Step ω Unit} (h : ∀ a, IgnoresDepth (step a))
    (as : List α) : IgnoresDepth (forEach step as) := by
  induction as with
  | nil => exact ignoresDepth_done ()
  | cons a as ih => exact (h a).bind fun _ ↦ ih

theorem IgnoresDepth.mapWritten {step : Step ω α} (h : IgnoresDepth step) (f : ω → ω') :
    IgnoresDepth (mapWritten f step) := by
  intro s n
  simp only [Step.mapWritten, h s n]

theorem IgnoresDepth.gather {step : Step ω α} (h : IgnoresDepth step) (f : List ω → ω') :
    IgnoresDepth (gather f step) := by
  intro s n
  simp only [Step.gather, h s n]

theorem IgnoresDepth.leaving {step : Step ω α} (h : IgnoresDepth step) (rest : List ω) :
    IgnoresDepth (leaving rest step) := by
  intro s n
  rcases hstep : step s with ⟨written, state, e | a⟩ <;> simp [Step.leaving, h s n, hstep]

/-- A change of the state that keeps the depth and does not look at it is such a step. -/
theorem ignoresDepth_update {f : RenderState → RenderState × Except Failure α}
    (h : ∀ s n, f (s.atDepth n) = ((f s).1.atDepth n, (f s).2)) :
    IgnoresDepth (update f : Step ω α) := by
  intro s n
  simp only [update, h s n]

theorem ignoresDepth_make (start : ω) (change : Change ω) : IgnoresDepth (make start change) := by
  intro s n
  rcases hchange : change start with ⟨piece, _ | e⟩ <;> simp [make, hchange]

end Step

end Folio
