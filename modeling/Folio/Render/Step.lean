import Folio.Failure
import Folio.Render.State

/-!
# Steps of a rendering

A step writes pieces, changes the state, and either returns a value or fails; what it wrote and
changed before a failure stays (`Outcome`). Steps in sequence write one after the other
(`Step.bind_of_ok`), and a failing step is the last (`Step.bind_of_error`).
-/

set_option autoImplicit false
set_option relaxedAutoImplicit false

namespace Folio

/-- What a step leaves: the pieces that it wrote, the state, and its value or failure. -/
structure Outcome (ω α : Type) where
  written : List ω
  state : RenderState
  result : Except Failure α

/-- A step of a rendering that writes pieces of type `ω`. -/
def Step (ω α : Type) := RenderState → Outcome ω α

namespace Step

variable {ω ω' α β : Type}

/-- The step that writes nothing and returns a value. -/
def done (a : α) : Step ω α := fun s => ⟨[], s, .ok a⟩

/-- One step after another; the second is not begun if the first fails. -/
def bind (first : Step ω α) (next : α → Step ω β) : Step ω β := fun s =>
  let o := first s
  match o.result with
  | .error e => ⟨o.written, o.state, .error e⟩
  | .ok a =>
    let p := next a o.state
    ⟨o.written ++ p.written, p.state, p.result⟩

instance : Monad (Step ω) where
  pure := done
  bind := bind

/-- The step that fails. -/
def fail (e : Failure) : Step ω α := fun s => ⟨[], s, .error e⟩

/-- The step that writes a piece. -/
def write (piece : ω) : Step ω Unit := fun s => ⟨[piece], s, .ok ()⟩

/-- The step that changes the state. -/
def modify (f : RenderState → RenderState) : Step ω Unit := fun s => ⟨[], f s, .ok ()⟩

/-- The step that reads something off the state. -/
def read (f : RenderState → α) : Step ω α := fun s => ⟨[], s, .ok (f s)⟩

/-- The step that logs. -/
def note (level : LogLevel) (message : String) : Step ω Unit := modify (.note level message)

/-- A step that changes the state and has a result, and writes nothing. -/
def update (f : RenderState → RenderState × Except Failure α) : Step ω α := fun s =>
  let (t, result) := f s
  ⟨[], t, result⟩

/-- A step after whose failure more pieces are written. -/
def leaving (rest : List ω) (step : Step ω α) : Step ω α := fun s =>
  let o := step s
  match o.result with
  | .error e => ⟨o.written ++ rest, o.state, .error e⟩
  | .ok a => ⟨o.written, o.state, .ok a⟩

/-- A step whose pieces are written in another form. -/
def mapWritten (f : ω → ω') (step : Step ω α) : Step ω' α := fun s =>
  let o := step s
  ⟨o.written.map f, o.state, o.result⟩

/-- A step whose pieces are gathered into one piece. -/
def gather (f : List ω → ω') (step : Step ω α) : Step ω' α := fun s =>
  let o := step s
  ⟨[f o.written], o.state, o.result⟩

/-- A piece that is made by a change, whether the change comes to its end or not. -/
def make (start : ω) (change : Change ω) : Step ω Unit := fun s =>
  match change start with
  | (piece, none) => ⟨[piece], s, .ok ()⟩
  | (piece, some e) => ⟨[piece], s, .error e⟩

/-- Steps for the elements of a list in order. -/
def forEach (step : α → Step ω Unit) : List α → Step ω Unit
  | [] => done ()
  | a :: as => bind (step a) fun _ => forEach step as

/-! ### What sequences write -/

theorem bind_of_ok {first : Step ω α} {next : α → Step ω β} {s : RenderState} {a : α}
    (h : (first s).result = .ok a) :
    bind first next s =
      ⟨(first s).written ++ (next a (first s).state).written, (next a (first s).state).state,
        (next a (first s).state).result⟩ := by
  simp only [bind, h]

theorem bind_of_error {first : Step ω α} {next : α → Step ω β} {s : RenderState} {e : Failure}
    (h : (first s).result = .error e) :
    bind first next s = ⟨(first s).written, (first s).state, .error e⟩ := by
  simp only [bind, h]

@[simp] theorem done_apply (a : α) (s : RenderState) : (done a : Step ω α) s = ⟨[], s, .ok a⟩ := rfl

@[simp] theorem fail_apply (e : Failure) (s : RenderState) :
    (fail e : Step ω α) s = ⟨[], s, .error e⟩ := rfl

@[simp] theorem write_apply (piece : ω) (s : RenderState) :
    write piece s = ⟨[piece], s, .ok ()⟩ := rfl

@[simp] theorem mapWritten_written (f : ω → ω') (step : Step ω α) (s : RenderState) :
    (mapWritten f step s).written = (step s).written.map f := rfl

@[simp] theorem mapWritten_state (f : ω → ω') (step : Step ω α) (s : RenderState) :
    (mapWritten f step s).state = (step s).state := rfl

@[simp] theorem mapWritten_result (f : ω → ω') (step : Step ω α) (s : RenderState) :
    (mapWritten f step s).result = (step s).result := rfl

@[simp] theorem gather_written (f : List ω → ω') (step : Step ω α) (s : RenderState) :
    (gather f step s).written = [f (step s).written] := rfl

@[simp] theorem gather_state (f : List ω → ω') (step : Step ω α) (s : RenderState) :
    (gather f step s).state = (step s).state := rfl

@[simp] theorem gather_result (f : List ω → ω') (step : Step ω α) (s : RenderState) :
    (gather f step s).result = (step s).result := rfl

end Step

end Folio
