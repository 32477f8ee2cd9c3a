import KingCheck.Referee.Step

/-!
# Runs

A run repeats steps until there is no more to do, then tells the sink so.  What was done
is gathered newest first on the way and handed over in order.
-/
namespace KingCheck

/-- What a run came to. -/
structure Run (κ : Type) where
  outcome : Except Failure Summary
  actions : List Action
  sink : κ

namespace Run

variable {κ : Type} (run : Run κ)

/-- The events of a run, in order. -/
def events : List Event := run.actions.filterMap fun
  | .note event => some event
  | _ => none

/-- The reports that were sent to the sink, in order; the last may have been refused. -/
def sent : List Report := run.actions.filterMap fun
  | .emit report => some report
  | _ => none

/-- How often the sink was told that there are no more reports. -/
def finishes : Nat := run.actions.count .finish

/-- The run with something done before it. -/
def after (done : List Action) : Run κ := { run with actions := done ++ run.actions }

@[simp] theorem after_after (first second : List Action) :
    (run.after second).after first = run.after (first ++ second) := by
  simp [after]

@[simp] theorem outcome_after (done : List Action) : (run.after done).outcome = run.outcome := rfl

@[simp] theorem sink_after (done : List Action) : (run.after done).sink = run.sink := rfl

@[simp] theorem actions_after (done : List Action) :
    (run.after done).actions = done ++ run.actions := rfl

end Run

namespace Referee

variable {σ κ : Type} [BoardSource σ] [ReportSink κ]

/-- Tell the sink that there are no more reports. -/
def close (r : Referee σ κ) : Run κ :=
  match ReportSink.finish r.sink with
  | (.ok (), sink) => ⟨.ok r.summary, [.finish, .note (.finished r.summary)], sink⟩
  | (.error failure, sink) => ⟨.error failure, [.finish], sink⟩

/-- Run on, when `past` was done before, newest first. -/
def runAfter (past : List Action) (r : Referee σ κ) : Run κ :=
  match h : r.step with
  | ⟨.ok true, done, next⟩ =>
    have : next.remaining < r.remaining := by
      simpa [h] using remaining_step_lt (r := r) (by rw [h])
    runAfter (done.reverseAux past) next
  | ⟨.ok false, done, next⟩ => next.close.after (done.reverseAux past).reverse
  | ⟨.error failure, done, next⟩ =>
    ⟨.error failure, (done.reverseAux past).reverse, next.sink⟩
termination_by r.remaining

/-- Run until the board without pieces, the end of the source or an error. -/
def run (r : Referee σ κ) : Run κ := r.runAfter []

private theorem runAfter_of_more {r next : Referee σ κ} {done : List Action}
    (h : r.step = ⟨.ok true, done, next⟩) (past : List Action) :
    r.runAfter past = next.runAfter (done.reverseAux past) := by
  rw [runAfter]
  split <;> simp_all

private theorem runAfter_of_end {r next : Referee σ κ} {done : List Action}
    (h : r.step = ⟨.ok false, done, next⟩) (past : List Action) :
    r.runAfter past = next.close.after (done.reverseAux past).reverse := by
  rw [runAfter]
  split <;> simp_all

private theorem runAfter_of_error {r next : Referee σ κ} {done : List Action} {failure : Failure}
    (h : r.step = ⟨.error failure, done, next⟩) (past : List Action) :
    r.runAfter past = ⟨.error failure, (done.reverseAux past).reverse, next.sink⟩ := by
  rw [runAfter]
  split <;> simp_all

/-- What was done before a run stands before what it does. -/
theorem runAfter_eq (past : List Action) (r : Referee σ κ) :
    r.runAfter past = r.run.after past.reverse := by
  rw [run]
  generalize hn : r.remaining = n
  induction n using Nat.strongRecOn generalizing past r with
  | ind n ih =>
    rcases h : r.step with ⟨failure | more, done, next⟩
    · simp [runAfter_of_error h, Run.after]
    · cases more
      · simp [runAfter_of_end h]
      · have hlt : next.remaining < r.remaining := by
          simpa [h] using remaining_step_lt (r := r) (by rw [h])
        rw [runAfter_of_more h, runAfter_of_more h, ih _ (hn ▸ hlt) (done.reverseAux past) next rfl,
          ih _ (hn ▸ hlt) (done.reverseAux []) next rfl]
        simp

/-- A run begins with its first step, and goes on while there is more to do. -/
theorem run_eq (r : Referee σ κ) :
    r.run =
      match r.step.outcome with
      | .ok true => r.step.next.run.after r.step.actions
      | .ok false => r.step.next.close.after r.step.actions
      | .error failure => ⟨.error failure, r.step.actions, r.step.next.sink⟩ := by
  rcases h : r.step with ⟨failure | more, done, next⟩
  · simp [run, runAfter_of_error h]
  · cases more
    · simp [run, runAfter_of_end h]
    · rw [run, runAfter_of_more h, runAfter_eq]
      simp

end Referee
end KingCheck
