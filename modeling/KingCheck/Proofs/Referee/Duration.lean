import KingCheck.Proofs.Input.Consumption
import KingCheck.Proofs.Referee.Tally

/-!
# How long a run takes

A drawing takes one step if it is refused as such, and two if its board is judged, so that `n`
drawings and the answer behind them take `2 * n + 1` steps at most and `n + 1` calls.  Neither the
options nor the sink can make a run longer: `Owes` bounds what is left, and each step lowers the
bound (`Owes.step`).  A reader has no more drawings than lines, and so a run over it ends.
-/
namespace KingCheck

/-- A supply hands out so many drawings, and then answers something else. -/
inductive Supply.Gives {σ : Type} [Supply σ] : σ → Nat → Prop where
  | last {source : σ} (hlast : (Supply.next source).1.isRows = false) : Gives source 0
  | more {source : σ} {n : Nat} (hrows : (Supply.next source).1.isRows = true)
      (hrest : Gives (Supply.next source).2 n) : Gives source (n + 1)

open Supply (Gives)
open Run (readBy)

namespace Input.Reader

/-- **A reader has as many drawings as lines at most.** -/
theorem exists_gives (r : Reader) : ∃ n ≤ r.lineCount, Gives r n := by
  generalize hcount : r.lineCount = count
  induction count using Nat.strongRecOn generalizing r with
  | ind count ih =>
    obtain ⟨lines, htakes⟩ := r.exists_takes
    have hline := htakes.isRows_add_lineCount_le
    cases hrows : r.nextBlock.1.isRows with
    | false => exact ⟨0, Nat.zero_le _, .last hrows⟩
    | true =>
      rw [hrows, Bool.toNat_true] at hline
      obtain ⟨n, hn, hgives⟩ := ih _ (by omega) r.nextBlock.2 rfl
      exact ⟨n + 1, by omega, .more hrows hgives⟩

end Input.Reader

namespace Referee

variable {σ κ : Type} [Supply σ] {r : Referee σ κ} {steps calls n : Nat}

/-- The steps and the calls that are left at most. -/
inductive Owes (r : Referee σ κ) : Nat → Nat → Prop where
  | terminated (hphase : r.phase = .terminated) : Owes r 0 0
  | reading {n : Nat} (hphase : r.phase = .reading) (hgives : Gives r.source n) :
      Owes r (2 * n + 1) (n + 1)
  | evaluating {board : Board} {n : Nat} (hphase : r.phase = .evaluating board)
      (hgives : Gives r.source n) : Owes r (2 * n + 2) (n + 1)

/-- In whichever phase, the drawings that are left bound both. -/
theorem exists_owes (hgives : Gives r.source n) : ∃ steps calls, r.Owes steps calls ∧
    steps ≤ 2 * n + 2 ∧ calls ≤ n + 1 ∧
    ((∀ board, r.phase ≠ .evaluating board) → steps ≤ 2 * n + 1) := by
  cases hphase : r.phase with
  | terminated => exact ⟨0, 0, .terminated hphase, by omega, by omega, by omega⟩
  | reading => exact ⟨_, _, .reading hphase hgives, by omega, Nat.le_refl _, by omega⟩
  | evaluating board =>
    refine ⟨_, _, .evaluating hphase hgives, Nat.le_refl _, Nat.le_refl _, fun h => ?_⟩
    exact absurd rfl (h board)

variable [ReportSink κ]

/-- Where no drawing comes, the referee is done. -/
theorem phase_step_of_not_isRows (hphase : r.phase = .reading)
    (hlast : (Supply.next r.source).1.isRows = false) : r.step.next.phase = .terminated := by
  have hstep := r.transition_step
  generalize r.step = s at hstep ⊢
  cases hstep with
  | failed | exhausted | cleared | aborted | unsent => rfl
  | idle hdone => exact hdone
  | taken _ hnext => simp [hnext, Answer.isRows] at hlast
  | skipped hrefused =>
    cases hrefused with
    | drawing _ hnext => simp [hnext, Answer.isRows] at hlast
    | kings hwaits => simp [hphase] at hwaits
  | sent hwaits => simp [hphase] at hwaits

/-- A board that waits is done with in one step. -/
theorem phase_step_of_evaluating {board : Board} (hphase : r.phase = .evaluating board)
    (other : Board) : r.step.next.phase ≠ .evaluating other := by
  have hstep := r.transition_step
  generalize r.step = s at hstep ⊢
  cases hstep with
  | failed | exhausted | cleared | aborted | skipped | sent | unsent => simp
  | taken hreads | idle hreads => simp [hphase] at hreads

/-- **A step is one less that is left, and so is each call that it makes.** -/
theorem Owes.step (h : r.Owes steps calls) : ∃ steps' calls', r.step.next.Owes steps' calls' ∧
    steps' ≤ steps - 1 ∧ (readBy r.step.actions).length + calls' ≤ calls := by
  cases h with
  | terminated hphase =>
    rw [step_of_isTerminated (by rw [isTerminated, hphase]; rfl)]
    exact ⟨0, 0, .terminated hphase, Nat.le_refl _, Nat.le_refl _⟩
  | @reading n hphase hgives =>
    obtain ⟨hread, hsource, -⟩ := step_of_reading hphase
    rw [hread, List.length_singleton]
    cases hgives with
    | last hlast =>
      exact ⟨0, 0, .terminated (phase_step_of_not_isRows hphase hlast), by omega, by omega⟩
    | more _ hrest =>
      obtain ⟨steps', calls', howes, hsteps, hcalls, -⟩ := exists_owes (hsource ▸ hrest)
      exact ⟨steps', calls', howes, by omega, by omega⟩
  | @evaluating board n hphase hgives =>
    obtain ⟨hread, hsource, -⟩ := step_of_evaluating hphase
    obtain ⟨steps', calls', howes, -, hcalls, hsteps⟩ := exists_owes (hsource ▸ hgives)
    have hless := hsteps (phase_step_of_evaluating hphase)
    refine ⟨steps', calls', howes, by omega, ?_⟩
    rw [hread, List.length_nil]
    omega

/-- **Some steps are as many less that are left.** -/
theorem Owes.afterSteps (h : r.Owes steps calls) (m : Nat) : ∃ steps' calls',
    (r.afterSteps m).Owes steps' calls' ∧ steps' ≤ steps - m ∧
      (readBy (r.actions m)).length + calls' ≤ calls := by
  induction m with
  | zero => exact ⟨steps, calls, h, Nat.le_refl _, (Nat.zero_add calls).le⟩
  | succ m ih =>
    obtain ⟨steps', calls', howes, hsteps, hcalls⟩ := ih
    obtain ⟨steps'', calls'', howes', hsteps', hcalls'⟩ := howes.step
    refine ⟨steps'', calls'', ?_, by omega, ?_⟩
    · rwa [afterSteps_succ]
    · rw [actions_succ, Run.readBy_append, List.length_append]
      omega

/-- After the steps that are left, and after any more, the referee is done. -/
theorem Owes.isTerminated_afterSteps (h : r.Owes steps calls) {m : Nat} (hm : steps ≤ m) :
    (r.afterSteps m).isTerminated = true := by
  obtain ⟨steps', calls', howes, hsteps, -⟩ := h.afterSteps m
  cases howes with
  | terminated hphase => rw [isTerminated, hphase]; rfl
  | reading | evaluating => omega

/-- The calls of a run are among those that are left. -/
theorem Owes.length_readBy_le (h : r.Owes steps calls) {run : Run κ} (hrun : r.RunsTo run) :
    (readBy run.actions).length ≤ calls := by
  have hhalts : ∀ {done : List Action} {outcome : Except Failure Unit} {last : Referee σ κ},
      r.Halts done outcome last → (readBy done).length ≤ calls := by
    intro done outcome last hhalts
    obtain ⟨m, rfl, -⟩ := hhalts.exists_steps
    obtain ⟨steps', calls', -, -, hcalls⟩ := h.afterSteps (m + 1)
    omega
  cases hrun with
  | @closed done last hdone =>
    have hclose : readBy last.close.actions = [] := by
      rw [close]
      split <;> rfl
    rw [Run.actions_after, Run.readBy_append, hclose, List.append_nil]
    exact hhalts hdone
  | failed hdone => exact hhalts hdone

/-- **Runs over what is finite are finite.**  Over a supply that hands out `n` drawings and then
answers something else, the referee is done after `2 * n + 1` steps and has made `n + 1` calls at
most, whatever the policies, the sink and the drawings are; so there is a run.  A reader is such a
supply: each call reads some lines and comes to an end, and one that hands out a drawing or fails
uses up a line or a failure.  So there are no more drawings than lines, and a run over a reader
comes to an end. -/
theorem runs_are_finite :
    (∀ (source : σ) (n : Nat), Gives source n → ∀ (sink : κ) (options : Options),
      let start : Referee σ κ := { source, sink, options }
      (∀ m, 2 * n + 1 ≤ m → (start.afterSteps m).isTerminated = true) ∧
      (∀ m, (readBy (start.actions m)).length ≤ n + 1) ∧
      ∃ run, start.RunsTo run ∧ (readBy run.actions).length ≤ n + 1) ∧
    ∀ reader : Input.Reader,
      (∃ lines, reader.Takes lines reader.nextBlock.1 reader.nextBlock.2 ∧
        lines.length + reader.nextBlock.2.lineCount ≤ reader.lineCount ∧
        (reader.nextBlock.1.isRows = true → lines ≠ []) ∧
        reader.nextBlock.1.isFailed.toNat + reader.nextBlock.2.failures = reader.failures) ∧
      (∀ calls, (BoardSource.answers calls reader).countP Answer.isRows ≤ reader.lineCount ∧
        (BoardSource.answers calls reader).countP Answer.isFailed ≤ reader.failures) ∧
      (∃ n ≤ reader.lineCount, Gives reader n) ∧
      ∀ (sink : κ) (options : Options),
        let start : Referee Input.Reader κ := { source := reader, sink, options }
        (start.afterSteps (2 * reader.lineCount + 1)).isTerminated = true ∧
          start.RunsTo start.run := by
  refine ⟨fun source n hgives sink options => ?_,
    fun reader => ⟨?_, reader.countP_answers_le, reader.exists_gives, ?_⟩⟩
  · intro start
    have howes : start.Owes (2 * n + 1) (n + 1) := .reading rfl hgives
    obtain ⟨run, hrun⟩ :=
      exists_runsTo_of_isTerminated (howes.isTerminated_afterSteps (Nat.le_refl _))
    refine ⟨fun m => howes.isTerminated_afterSteps, fun m => ?_, run, hrun,
      howes.length_readBy_le hrun⟩
    obtain ⟨steps', calls', -, -, hcalls⟩ := howes.afterSteps m
    omega
  · obtain ⟨lines, htakes⟩ := reader.exists_takes
    exact ⟨lines, htakes, htakes.lineCount_le, htakes.ne_nil, htakes.failures_eq⟩
  · intro sink options start
    obtain ⟨n, hn, hgives⟩ := reader.exists_gives
    have howes : start.Owes (2 * n + 1) (n + 1) := .reading rfl hgives
    exact ⟨howes.isTerminated_afterSteps (by omega), start.runsTo_run⟩

/-- A board that is judged, one that draws nothing and one that lacks a king, all of which are gone
after five steps; the next comes to the failure. -/
theorem runs_are_finite_mixed :
    let loneKing : Drawing := List.replicate 7 "........" ++ ["k......R"]
    let source : List Answer := [.rows Drawing.twoKings, .rows ["k"], .rows loneKing,
      .failed (.device "gone"), .rows Drawing.twoKings]
    let start : Referee (List Answer) Output.ReportList :=
      { source, sink := {}, options := ⟨.skip, .refuse⟩ }
    Gives source 3 ∧ (start.afterSteps 5).isTerminated = false ∧
    (∀ m, 7 ≤ m → (start.afterSteps m).isTerminated = true) ∧
    (∀ m, (readBy (start.actions m)).length ≤ 4) ∧
    ∃ run, start.RunsTo run ∧ (readBy run.actions).length ≤ 4 := by
  intro loneKing source start
  have hgives : Gives source 3 := .more rfl (.more rfl (.more rfl (.last rfl)))
  exact ⟨hgives, by decide +kernel, runs_are_finite.1 source 3 hgives start.sink start.options⟩

end Referee
end KingCheck
