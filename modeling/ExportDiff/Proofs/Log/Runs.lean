/-
# ExportDiff.Proofs.Log.Runs — what a run logs

A run logs some entries (`Run.Logs`) if its events are theirs and they tell how it ends: nothing in
them fails if the run completes, and if it fails, its failure is in the last of them and in no other.
That is kept by composing runs and by putting a run into an operation, so it holds of a whole program
if it holds of the operations that may fail of themselves.
-/

import ExportDiff.Run
import ExportDiff.Proofs.Log.Nesting

namespace ExportDiff

open Log (Entry Ending Event Facts Operation)

/-! ## Logs that depend on an outcome -/

section Outcome

variable {α β γ : Type}

/-- What follows where something has been done; nothing does where it has failed. -/
def whenDone (result : Except Failure α) (following : α → List β) : List β :=
  match result with
  | .ok x => following x
  | .error _ => []

/-- How an operation with this outcome ends: well, with what is then told of it, or otherwise. -/
def endingOf (result : Except Failure α) (facts : α → Facts) (otherwise : Failure → Ending) :
    Ending :=
  match result with
  | .ok x => .well (facts x)
  | .error failure => otherwise failure

end Outcome

namespace Run

variable {α β : Type} {reports : Failure → Event → Prop} {run : Run α} {entries : List Entry}

theorem events_bind (run : Run α) (next : α → Run β) :
    (run >>= next).events = run.events ++
      match run.result with
      | .ok x => (next x).events
      | .error _ => [] := by
  show (andThen run next).events = _
  unfold andThen
  cases run.result with
  | ok x => rfl
  | error failure => exact (List.append_nil _).symm

theorem result_bind_eq_ok_iff {next : α → Run β} {y : β} :
    (run >>= next).result = .ok y ↔ ∃ x, run.result = .ok x ∧ (next x).result = .ok y := by
  cases hresult : run.result with
  | ok x =>
    rw [result_bind_of_ok hresult]
    simp only [Except.ok.injEq, exists_eq_left']
  | error failure =>
    rw [result_bind_of_error hresult]
    exact iff_of_false nofun nofun

/-- A run logs these entries. Where it fails, the event that reports the failure is one that may
report it. -/
structure Logs (reports : Failure → Event → Prop) (run : Run α) (entries : List Entry) : Prop where
  events : run.events = Entry.allEvents entries
  well : ∀ x, run.result = .ok x → ∀ entry ∈ entries, entry.Well
  fails : ∀ failure, run.result = .error failure → ∃ before last reported,
    entries = before ++ [last] ∧ (∀ entry ∈ before, entry.Well) ∧ reports failure reported ∧
      last.Fails failure reported

theorem Logs.pure (x : α) : (pure x : Run α).Logs reports [] where
  events := rfl
  well := fun _ _ => List.forall_mem_nil _
  fails := nofun

/-- A run that goes on logs what it has logged, and behind it what it goes on to log. -/
theorem Logs.bind {next : α → Run β} {following : α → List Entry} (hrun : run.Logs reports entries)
    (hnext : ∀ x, run.result = .ok x → (next x).Logs reports (following x)) :
    (run >>= next).Logs reports (entries ++ whenDone run.result following) := by
  cases hresult : run.result with
  | ok x =>
    have hwell := hrun.well x hresult
    have hnext := hnext x hresult
    have hgoesOn : (run >>= next).result = (next x).result := result_bind_of_ok hresult next
    constructor
    · rw [events_bind, hresult, Entry.allEvents_append, hrun.events]
      exact congrArg _ hnext.events
    · intro y hy
      rw [List.forall_mem_append]
      exact ⟨hwell, hnext.well y (hgoesOn ▸ hy)⟩
    · intro failure hfailure
      obtain ⟨before, last, reported, heq, hbefore, hreports, hlast⟩ :=
        hnext.fails failure (hgoesOn ▸ hfailure)
      refine ⟨entries ++ before, last, reported, ?_, ?_, hreports, hlast⟩
      · show entries ++ following x = _
        rw [heq, List.append_assoc]
      · rw [List.forall_mem_append]
        exact ⟨hwell, hbefore⟩
  | error first =>
    have hends : (run >>= next).result = .error first := result_bind_of_error hresult next
    constructor
    · rw [events_bind, hresult, hrun.events]
      show _ ++ [] = Entry.allEvents (entries ++ [])
      rw [List.append_nil, List.append_nil]
    · intro y hy
      rw [hends] at hy
      cases hy
    · intro failure hfailure
      obtain rfl := Except.error.inj (hends.symm.trans hfailure)
      show ∃ before last reported, entries ++ [] = before ++ [last] ∧ _
      rw [List.append_nil]
      exact hrun.fails first hresult

section Operations

variable (op : Operation) (about onFailure : Facts) (facts : α → Facts)

theorem events_between (otherwise : Failure → Ending)
    (hevents : run.events = Entry.allEvents entries) :
    (between (op.started about.fields) (fun x => op.ended .elapsed (facts x).fields)
        (fun failure => (otherwise failure).event op) run).events
      = Entry.allEvents [.operation op about entries (endingOf run.result facts otherwise)] := by
  show op.started about.fields :: run.events ++ [_]
    = (op.started about.fields :: Entry.allEvents entries ++ [_]) ++ []
  rw [hevents, List.append_nil]
  cases run.result <;> rfl

/-- An operation that may fail of itself, with nothing in it that fails, reports its failure. -/
theorem Logs.own (hevents : run.events = Entry.allEvents entries)
    (hwell : ∀ entry ∈ entries, entry.Well)
    (hreports : ∀ failure, run.result = .error failure →
      reports failure (op.failed .elapsed failure onFailure.fields)) :
    (between (op.started about.fields) (fun x => op.ended .elapsed (facts x).fields)
        (fun failure => op.failed .elapsed failure onFailure.fields) run).Logs reports
      [.operation op about entries (endingOf run.result facts (.failed · onFailure))] := by
  constructor
  · exact events_between op about facts (.failed · onFailure) hevents
  · intro x hx
    rw [result_between] at hx
    rw [hx, List.forall_mem_singleton]
    exact .operation op about (facts x) hwell
  · intro failure hfailure
    rw [result_between] at hfailure
    rw [hfailure]
    exact ⟨[], _, _, rfl, List.forall_mem_nil _, hreports failure hfailure,
      .own op about onFailure hwell⟩

/-- An operation around a run ends as this does. -/
theorem Logs.around (h : run.Logs reports entries) :
    (between (op.started about.fields) (fun x => op.ended .elapsed (facts x).fields)
        (fun failure => op.interrupted .elapsed failure onFailure.fields) run).Logs reports
      [.operation op about entries (endingOf run.result facts (.interrupted · onFailure))] := by
  constructor
  · exact events_between op about facts (.interrupted · onFailure) h.events
  · intro x hx
    rw [result_between] at hx
    rw [hx, List.forall_mem_singleton]
    exact .operation op about (facts x) (h.well x hx)
  · intro failure hfailure
    rw [result_between] at hfailure
    obtain ⟨before, last, reported, rfl, hbefore, hreports, hlast⟩ := h.fails failure hfailure
    rw [hfailure]
    exact ⟨[], _, reported, rfl, List.forall_mem_nil _, hreports,
      .within op about onFailure hbefore hlast⟩

end Operations

end Run

end ExportDiff
