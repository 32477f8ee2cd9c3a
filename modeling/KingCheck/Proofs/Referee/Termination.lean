import KingCheck.Proofs.Referee.History

/-!
# Termination

A step leaves the referee done exactly if it says so, by the answer that there is no more
to do or by an error, and an error has one of three causes (`Breaks`).  A referee that is
done does nothing any more, whatever its source still has.
-/
namespace KingCheck.Referee

variable {σ κ : Type} [Supply σ] [ReportSink κ]

/-- The causes of an error in the next step. -/
inductive Breaks (r : Referee σ κ) : Failure → Prop where
  /-- The source fails. -/
  | source {failure : Failure} (hphase : r.phase = .reading)
      (hnext : (Supply.next r.source).1 = .failed failure) : Breaks r failure
  /-- A board is refused, and a refused board ends the run. -/
  | board {next : Referee σ κ} {reason : BoardError} {done : List Action}
      (hrefused : r.Refuses next reason done) (habort : r.options.onMalformed = .abort) :
      Breaks r (.invalidBoard next.boardsRead reason)
  /-- The sink does not take the report. -/
  | sink {board : Board} {j : Judgement} {failure : Failure} (hphase : r.phase = .evaluating board)
      (hjudged : board.evaluate r.options.missingKing = .ok j)
      (hemit : (ReportSink.emit r.sink (r.reportOn j)).1 = .error failure) : Breaks r failure

variable {r : Referee σ κ}

/-- An error has one of the causes, and each cause leads to an error. -/
theorem step_eq_error_iff {failure : Failure} :
    r.step.outcome = .error failure ↔ r.Breaks failure := by
  constructor
  · intro h
    have hstep := r.transition_step
    generalize r.step = s at hstep h
    cases hstep with
    | failed hphase hnext =>
      obtain rfl := Except.error.inj h
      exact .source hphase (by rw [hnext])
    | aborted hrefused habort =>
      obtain rfl := Except.error.inj h
      exact .board hrefused habort
    | unsent hphase hjudged hemit =>
      obtain rfl := Except.error.inj h
      exact .sink hphase hjudged (by rw [hemit])
    | exhausted | cleared | taken | skipped | sent | idle => simp at h
  · intro h
    cases h with
    | source hphase hnext => rw [(Transition.failed hphase (Prod.ext hnext rfl)).step_eq]
    | board hrefused habort => rw [(Transition.aborted hrefused habort).step_eq]
    | sink hphase hjudged hemit =>
      rw [(Transition.unsent hphase hjudged (Prod.ext hemit rfl)).step_eq]

/-- A step leaves the referee done if it is the last that had something to do. -/
theorem isTerminated_next_iff :
    r.step.next.isTerminated = true ↔ r.step.outcome ≠ .ok true := by
  have hstep := r.transition_step
  generalize r.step = s at hstep ⊢
  cases hstep with
  | failed | exhausted | cleared | aborted | unsent => simp [isTerminated]
  | taken | skipped | sent => simp [isTerminated]
  | idle hphase => simp [isTerminated, hphase]

/-- A referee that is done stays as it is. -/
theorem step_of_isTerminated (h : r.isTerminated = true) : r.step = ⟨.ok false, [], r⟩ :=
  (Transition.idle (by simpa [isTerminated] using h)).step_eq

theorem afterSteps_of_isTerminated (h : r.isTerminated = true) (n : Nat) : r.afterSteps n = r :=
  Function.iterate_fixed (congrArg Step.next (step_of_isTerminated h)) n

theorem steps_of_isTerminated (h : r.isTerminated = true) (n : Nat) :
    r.steps n = List.replicate n ⟨.ok false, [], r⟩ := by
  rw [steps, List.eq_replicate_iff]
  refine ⟨by simp, ?_⟩
  intro s hs
  obtain ⟨i, -, rfl⟩ := List.mem_map.1 hs
  rw [afterSteps_of_isTerminated h, step_of_isTerminated h]

/-- **The end is told exactly, and for good.**  After any number of steps, the next one
leaves the referee done if and only if it answers that there is no more to do or fails; it
fails exactly if the source does, a board is refused that ends the run, or the sink takes no
report.  Any number of steps of a referee that is done do nothing and change nothing. -/
theorem terminates_iff_and_stays (source : σ) (sink : κ) (options : Options) (n : Nat) :
    let r := ({ source, sink, options } : Referee σ κ).afterSteps n
    (r.step.next.isTerminated = true ↔
      r.step.outcome = .ok false ∨ ∃ failure, r.step.outcome = .error failure) ∧
    (∀ failure, r.step.outcome = .error failure ↔ r.Breaks failure) ∧
    (r.isTerminated = true →
      ∀ more, r.steps more = List.replicate more ⟨.ok false, [], r⟩ ∧ r.afterSteps more = r) := by
  intro r
  refine ⟨?_, fun _ => step_eq_error_iff, fun h more => ?_⟩
  · rw [isTerminated_next_iff]
    rcases r.step.outcome with failure | _ | _ <;> simp
  · exact ⟨steps_of_isTerminated h more, afterSteps_of_isTerminated h more⟩

/-- A board without pieces, and more boards and a failure behind it: two further steps touch
none of them. -/
theorem terminates_iff_and_stays_cleared :
    let start : Referee (List Answer) Output.ReportList :=
      { source := [.rows (List.replicate 8 "........"), .rows Drawing.twoKings,
          .failed (.device "gone")], sink := {} }
    let r := start.afterSteps 1
    r.isTerminated = true ∧ r.source.length = 2 ∧
    r.steps 2 = [⟨.ok false, [], r⟩, ⟨.ok false, [], r⟩] ∧ r.afterSteps 2 = r := by
  intro start r
  have hdone : r.isTerminated = true := by decide +kernel
  have hstays :=
    (terminates_iff_and_stays start.source start.sink start.options 1).2.2 hdone 2
  exact ⟨hdone, by decide +kernel, hstays⟩

end KingCheck.Referee
