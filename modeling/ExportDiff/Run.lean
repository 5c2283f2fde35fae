/-
# ExportDiff.Run — computations that report what they do

A run yields a value or a failure, and the events that it reported on the way, in order. Runs are
composed like any computation that may fail: the events of the second follow those of the first, and
after a failure nothing more happens.

`Run.between` puts a run between the two events of an operation, so that the events of every run built
this way are bracketed: each start is closed by exactly one end of the same operation.
-/

import ExportDiff.Log.Event

namespace ExportDiff

/-- The outcome of a computation and the events that it reported. -/
structure Run (α : Type) where
  result : Except Failure α
  events : List Log.Event

namespace Run

variable {α β : Type}

/-- Yields a value. -/
def done (x : α) : Run α := ⟨.ok x, []⟩

/-- Fails. -/
def fail (failure : Failure) : Run α := ⟨.error failure, []⟩

/-- Reports events. -/
def report (events : List Log.Event) : Run Unit := ⟨.ok (), events⟩

/-- Yields what is given, or fails as it does. -/
def ofExcept (result : Except Failure α) : Run α := ⟨result, []⟩

/-- Goes on with the value of a run. -/
def andThen (run : Run α) (next : α → Run β) : Run β :=
  match run.result with
  | .ok x => ⟨(next x).result, run.events ++ (next x).events⟩
  | .error failure => ⟨.error failure, run.events⟩

instance : Monad Run where
  pure := done
  bind := andThen

/-- A run between the events of its start and of its end. -/
def between (start : Log.Event) (ended : α → Log.Event) (failed : Failure → Log.Event)
    (body : Run α) : Run α :=
  let last := match body.result with
    | .ok x => ended x
    | .error failure => failed failure
  ⟨body.result, start :: body.events ++ [last]⟩

@[simp] theorem result_pure (x : α) : (pure x : Run α).result = .ok x := rfl

@[simp] theorem events_pure (x : α) : (pure x : Run α).events = [] := rfl

theorem result_bind (run : Run α) (next : α → Run β) :
    (run >>= next).result = run.result.bind fun x => (next x).result := by
  show (andThen run next).result = _
  unfold andThen
  cases run.result <;> rfl

theorem result_bind_of_ok {run : Run α} {x : α} (h : run.result = .ok x) (next : α → Run β) :
    (run >>= next).result = (next x).result := by
  rw [result_bind, h]
  rfl

theorem result_bind_of_error {run : Run α} {failure : Failure} (h : run.result = .error failure)
    (next : α → Run β) : (run >>= next).result = .error failure := by
  rw [result_bind, h]
  rfl

@[simp] theorem result_between (start : Log.Event) (ended : α → Log.Event)
    (failed : Failure → Log.Event) (body : Run α) :
    (between start ended failed body).result = body.result := rfl

end Run

end ExportDiff
