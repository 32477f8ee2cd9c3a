import KingCheck.Proofs.Referee.Transition

/-!
# Runs that end

A supply of drawings need not end, and then a run need not either.  `Halts` says what is
done when steps are repeated until there is no more to do, and `RunsTo` what a run comes
to then.  There is at most one such run (`RunsTo.unique`), and over a source, which ends,
there is one: the run that is computed (`runsTo_iff`).
-/
namespace KingCheck

namespace Referee

variable {σ κ : Type} [Supply σ] [ReportSink κ]

/-- Steps are repeated until there is no more to do: all that they do, whether the last of
them failed, and the referee that is left. -/
inductive Halts : Referee σ κ → List Action → Except Failure Unit → Referee σ κ → Prop where
  | ended {r last : Referee σ κ} {done : List Action} (hstep : r.step = ⟨.ok false, done, last⟩) :
      Halts r done (.ok ()) last
  | failed {r last : Referee σ κ} {done : List Action} {failure : Failure}
      (hstep : r.step = ⟨.error failure, done, last⟩) : Halts r done (.error failure) last
  | more {r next last : Referee σ κ} {first done : List Action} {outcome : Except Failure Unit}
      (hstep : r.step = ⟨.ok true, first, next⟩) (hrest : Halts next done outcome last) :
      Halts r (first ++ done) outcome last

/-- A run comes to an end: the sink is told so unless a step failed. -/
inductive RunsTo (r : Referee σ κ) : Run κ → Prop where
  | closed {done : List Action} {last : Referee σ κ} (h : r.Halts done (.ok ()) last) :
      RunsTo r (last.close.after done)
  | failed {done : List Action} {failure : Failure} {last : Referee σ κ}
      (h : r.Halts done (.error failure) last) : RunsTo r ⟨.error failure, done, last.sink⟩

variable {r : Referee σ κ}

/-- A step never tells the sink that there are no more reports. -/
theorem Transition.count_finish {s : Step σ κ} (h : r.Transition s) :
    s.actions.count .finish = 0 := by
  cases h with
  | failed | exhausted | cleared | taken | idle => rfl
  | aborted hrefused | skipped hrefused => cases hrefused <;> rfl
  | sent | unsent => exact count_finish_judgingActions _ _ _

theorem Halts.count_finish {done : List Action} {outcome : Except Failure Unit}
    {last : Referee σ κ} (h : r.Halts done outcome last) : done.count .finish = 0 := by
  induction h with
  | ended hstep | failed hstep => exact (transition_of_step_eq hstep).count_finish
  | more hstep _ ih => rw [List.count_append, (transition_of_step_eq hstep).count_finish, ih]

/-- Steps can be repeated in one way only. -/
theorem Halts.unique {done done' : List Action} {outcome outcome' : Except Failure Unit}
    {last last' : Referee σ κ} (h : r.Halts done outcome last)
    (h' : r.Halts done' outcome' last') : done = done' ∧ outcome = outcome' ∧ last = last' := by
  induction h generalizing done' with
  | ended hstep =>
    cases h' with
    | ended hstep' | failed hstep' | more hstep' =>
      rw [hstep] at hstep'
      simp_all
  | failed hstep =>
    cases h' with
    | ended hstep' | failed hstep' | more hstep' =>
      rw [hstep] at hstep'
      simp_all
  | more hstep hrest ih =>
    cases h' with
    | ended hstep' | failed hstep' =>
      rw [hstep] at hstep'
      simp at hstep'
    | more hstep' hrest' =>
      rw [hstep] at hstep'
      obtain ⟨-, rfl, rfl⟩ := Step.mk.inj hstep'
      obtain ⟨rfl, rfl, rfl⟩ := ih hrest'
      exact ⟨rfl, rfl, rfl⟩

/-- A run comes to one end only. -/
theorem RunsTo.unique {run run' : Run κ} (h : r.RunsTo run) (h' : r.RunsTo run') : run = run' := by
  cases h with
  | closed h =>
    cases h' with
    | closed h' =>
      obtain ⟨rfl, -, rfl⟩ := h.unique h'
      rfl
    | failed h' => exact absurd (h.unique h').2.1 (by simp)
  | failed h =>
    cases h' with
    | closed h' => exact absurd (h.unique h').2.1 (by simp)
    | failed h' =>
      obtain ⟨rfl, heq, rfl⟩ := h.unique h'
      obtain rfl := Except.error.inj heq
      rfl

/-- What a run does first comes before what it does later. -/
theorem RunsTo.more {next : Referee σ κ} {first : List Action} {run : Run κ}
    (hstep : r.step = ⟨.ok true, first, next⟩) (h : next.RunsTo run) :
    r.RunsTo (run.after first) := by
  cases h with
  | closed h =>
    rw [Run.after_after]
    exact .closed (.more hstep h)
  | failed h => exact .failed (.more hstep h)

section Source

variable {σ κ : Type} [BoardSource σ] [ReportSink κ]

/-- Over a source a run comes to an end. -/
theorem runsTo_run (r : Referee σ κ) : r.RunsTo r.run := by
  generalize hn : r.remaining = n
  induction n using Nat.strongRecOn generalizing r with
  | ind n ih =>
    rw [run_eq]
    rcases hstep : r.step with ⟨failure | _ | _, done, next⟩
    · exact .failed (.failed hstep)
    · exact .closed (.ended hstep)
    · have hlt : next.remaining < r.remaining := by
        simpa [hstep] using remaining_step_lt (r := r) (by rw [hstep])
      exact .more hstep (ih _ (hn ▸ hlt) next rfl)

/-- **Over a source the run that is computed is the one there is.** -/
theorem runsTo_iff {r : Referee σ κ} {run : Run κ} : r.RunsTo run ↔ r.run = run := by
  constructor
  · exact r.runsTo_run.unique
  · rintro rfl
    exact r.runsTo_run

end Source

end Referee
end KingCheck
