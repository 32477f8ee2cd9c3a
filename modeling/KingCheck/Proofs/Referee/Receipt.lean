import KingCheck.Proofs.Referee.Halting
import KingCheck.Proofs.Referee.Termination

/-!
# What the sink receives

The actions of a referee name the reports that it sent; here they are held against the sink.  One
step sends one report at most, and it goes to the sink as it is by then (`Transition.receives`).  A
report that is refused makes its step fail, and nothing is sent behind it.  So the sink after any
number of steps is the first one with the reports delivered to it (`receives_afterSteps`).  A run
tells that sink the end if no step failed, and comes to what the sink answers then (`Run.Reaches`).
-/
namespace KingCheck

open ReportSink (deliver Willing)

variable {σ κ : Type} [ReportSink κ]

namespace ReportSink

/-- What a sink received in steps that came to `stepped`, and how that left it. -/
structure Receives (sink : κ) (reports : List Report) (stepped : Except Failure Unit) (left : κ) :
    Prop where
  /-- The reports were given to it one after another, and nothing else was. -/
  left_eq : (deliver sink reports).2 = left
  /-- It took each report, but perhaps not the last. -/
  taken : (deliver sink reports.dropLast).1 = .ok ()
  /-- A refusal is the failure of the steps. -/
  refused : ∀ failure, (deliver sink reports).1 = .error failure → stepped = .error failure

namespace Receives

variable {sink next left : κ} {first reports : List Report} {stepped : Except Failure Unit}

/-- Reports that were all taken are received, whatever the steps came to. -/
theorem of_taken (h : deliver sink reports = (.ok (), left)) (stepped : Except Failure Unit) :
    Receives sink reports stepped left where
  left_eq := by rw [h]
  taken := by
    rcases List.eq_nil_or_concat' reports with rfl | ⟨before, last, rfl⟩
    · rfl
    · rw [List.dropLast_concat]
      rcases hbefore : deliver sink before with ⟨failure | _, next⟩
      · rw [deliver_append_of_error hbefore] at h
        simp at h
      · rfl
  refused := by simp [h]

/-- A single report may be refused, and the step fails. -/
theorem of_refused {report : Report} {failure : Failure}
    (h : emit sink report = (.error failure, left)) :
    Receives sink [report] (.error failure) left where
  left_eq := by rw [deliver_cons_of_error h]
  taken := rfl
  refused := by
    rw [deliver_cons_of_error h]
    exact fun _ => id

/-- In steps that did not fail, all reports were taken. -/
theorem deliver_eq (h : Receives sink reports (.ok ()) left) :
    deliver sink reports = (.ok (), left) := by
  refine Prod.ext ?_ h.left_eq
  cases hanswer : (deliver sink reports).1 with
  | ok => rfl
  | error failure => exact absurd (h.refused failure hanswer) (by simp)

/-- What is sent later goes to the sink that took what was sent before. -/
theorem append (h : Receives next reports stepped left)
    (hfirst : deliver sink first = (.ok (), next)) :
    Receives sink (first ++ reports) stepped left where
  left_eq := by
    rw [deliver_append hfirst]
    exact h.left_eq
  taken := by
    cases reports with
    | nil =>
      rw [List.append_nil]
      exact (of_taken hfirst stepped).taken
    | cons r reports =>
      rw [List.dropLast_append_of_ne_nil (List.cons_ne_nil r reports), deliver_append hfirst]
      exact h.taken
  refused := by
    rw [deliver_append hfirst]
    exact h.refused

end Receives
end ReportSink

namespace Referee

open ReportSink (Receives)
open Run (sentBy)

/-- To close a run is to tell the sink the end: it comes to what the sink answers. -/
theorem finish_eq_close (r : Referee σ κ) :
    ReportSink.finish r.sink = (r.close.outcome.map fun _ => (), r.close.sink) := by
  rw [close]
  rcases ReportSink.finish r.sink with ⟨_ | _, sink⟩ <;> rfl

theorem sent_close (r : Referee σ κ) : r.close.sent = [] := by
  rw [close]
  rcases ReportSink.finish r.sink with ⟨_ | _, sink⟩ <;> rfl

variable [Supply σ] {r : Referee σ κ}

/-- **What one step sends goes to the sink.** -/
theorem Transition.receives {s : Step σ κ} (h : r.Transition s) :
    Receives r.sink (sentBy s.actions) (s.outcome.map fun _ => ()) s.next.sink := by
  cases h with
  | failed | exhausted | cleared | taken | idle => exact .of_taken rfl _
  | aborted hrefused =>
    rw [hrefused.sentBy_eq_nil]
    exact .of_taken (congrArg _ hrefused.sink_eq.symm) _
  | skipped hrefused =>
    rw [hrefused.sentBy_append_note]
    exact .of_taken (congrArg _ hrefused.sink_eq.symm) _
  | sent _ _ hemit =>
    rw [sentBy_judgingActions]
    exact .of_taken (ReportSink.deliver_cons_of_ok hemit) _
  | unsent _ _ hemit =>
    rw [sentBy_judgingActions]
    exact .of_refused hemit

/-- What the first steps came to: the failure of the first that failed. -/
def stepped (r : Referee σ κ) (n : Nat) : Except Failure Unit :=
  forM (r.steps n) fun s => s.outcome.map fun _ => ()

theorem stepped_succ (r : Referee σ κ) (n : Nat) : r.stepped (n + 1) =
    r.stepped n >>= fun _ => (r.afterSteps n).step.outcome.map fun _ => () := by
  rw [stepped, steps_succ, List.forM_append, List.forM_cons, List.forM_nil, bind_pure_unit]
  rfl

/-- A step that failed leaves nothing to do. -/
theorem isTerminated_of_stepped {n : Nat} {failure : Failure} (h : r.stepped n = .error failure) :
    (r.afterSteps n).isTerminated = true := by
  induction n with
  | zero => exact absurd h (by simp [stepped, steps, pure, Except.pure])
  | succ n ih =>
    rw [afterSteps_succ]
    rw [stepped_succ] at h
    cases hbefore : r.stepped n with
    | error earlier =>
      rw [hbefore] at h
      obtain rfl : earlier = failure := Except.error.inj h
      rw [step_of_isTerminated (ih hbefore)]
      exact ih hbefore
    | ok =>
      rw [hbefore] at h
      refine isTerminated_next_iff.2 fun hmore => ?_
      rw [hmore] at h
      exact absurd h (by simp [bind, Except.bind, Except.map])

/-- **After any number of steps the sink is the first one with the reports delivered to it.**  It
took all of them but perhaps the last, and if it refused that one, the first step that failed did so
for it. -/
theorem receives_afterSteps (r : Referee σ κ) (n : Nat) :
    Receives r.sink (sentBy (r.actions n)) (r.stepped n) (r.afterSteps n).sink := by
  induction n with
  | zero => exact .of_taken rfl _
  | succ n ih =>
    have hlast := (r.afterSteps n).transition_step.receives
    rw [actions_succ, Run.sentBy_append, afterSteps_succ, stepped_succ]
    cases hbefore : r.stepped n with
    | error failure =>
      -- The referee is done, and stays as it is.
      rw [step_of_isTerminated (isTerminated_of_stepped hbefore)]
      rw [hbefore] at ih
      exact (List.append_nil _).symm ▸ ih
    | ok =>
      rw [hbefore] at ih
      exact hlast.append ih.deliver_eq

theorem Halts.receives {done : List Action} {outcome : Except Failure Unit} {last : Referee σ κ}
    (h : r.Halts done outcome last) : Receives r.sink (sentBy done) outcome last.sink := by
  induction h with
  | ended hstep | failed hstep => exact (transition_of_step_eq hstep).receives
  | more hstep _ ih =>
    rw [Run.sentBy_append]
    exact ih.append (transition_of_step_eq hstep).receives.deliver_eq

end Referee

/-- What a run, whose steps came to `stepped`, makes of the sink that it begins with. -/
inductive Run.Reaches (sink : κ) : Except Failure Unit → Run κ → Prop where
  /-- No step failed.  The sink took the reports and was told the end; its answer is the run's. -/
  | closed {run : Run κ} {taken : κ} (hsent : deliver sink run.sent = (.ok (), taken))
      (hfinish : ReportSink.finish taken = (run.outcome.map fun _ => (), run.sink)) :
      Reaches sink (.ok ()) run
  /-- A step failed, and the sink was told no end. -/
  | failed {run : Run κ} {failure : Failure}
      (hsent : ReportSink.Receives sink run.sent (.error failure) run.sink)
      (houtcome : run.outcome = .error failure) : Reaches sink (.error failure) run

namespace Referee

open ReportSink (Receives)
open Run (sentBy)

variable [Supply σ] {r : Referee σ κ}

/-- Steps that did not fail are followed by telling the sink. -/
theorem Halts.reaches_close {done : List Action} {last : Referee σ κ}
    (h : r.Halts done (.ok ()) last) : (last.close.after done).Reaches r.sink (.ok ()) := by
  have hsent : deliver r.sink (last.close.after done).sent = (.ok (), last.sink) := by
    rw [Run.sent_after, sent_close, List.append_nil]
    exact h.receives.deliver_eq
  refine .closed hsent ?_
  rw [Run.outcome_after, Run.sink_after, finish_eq_close]

/-- **A run does to its sink what its actions tell**, whatever the sink answers. -/
theorem RunsTo.reaches {run : Run κ} (h : r.RunsTo run) :
    ∃ stepped, run.Reaches r.sink stepped := by
  cases h with
  | closed h => exact ⟨_, h.reaches_close⟩
  | failed h => exact ⟨_, .failed h.receives rfl⟩

end Referee

/-- A sink that never fails took the reports of a run, and was told the end exactly if the run
succeeded. -/
def Run.Delivers (run : Run κ) (sink : κ) : Prop :=
  ∃ taken, deliver sink run.sent = (.ok (), taken) ∧
    if run.outcome.isOk then ReportSink.finish taken = (.ok (), run.sink) else run.sink = taken

namespace Run

variable {run other : Run κ} {sink : κ} {stepped : Except Failure Unit}

/-- Where the end changes nothing, a run leaves the sink as its reports do. -/
theorem Reaches.sink_eq (h : run.Reaches sink stepped)
    (hkept : (ReportSink.finish (deliver sink run.sent).2).2 = (deliver sink run.sent).2) :
    run.sink = (deliver sink run.sent).2 := by
  cases h with
  | closed hsent hfinish =>
    rw [hsent, hfinish] at hkept
    rw [hsent]
    exact hkept
  | failed hsent => exact hsent.left_eq.symm

theorem Reaches.delivers (h : run.Reaches sink stepped) (hsink : Willing sink) :
    run.Delivers sink := by
  obtain ⟨taken, htaken, hwilling⟩ := hsink.deliver_ok run.sent
  refine ⟨taken, htaken, ?_⟩
  cases h with
  | closed hsent hfinish =>
    obtain rfl := congrArg Prod.snd (hsent.symm.trans htaken)
    have hok := hwilling.finish_ok
    cases houtcome : run.outcome with
    | ok =>
      rw [houtcome] at hfinish
      exact hfinish
    | error =>
      rw [hfinish, houtcome] at hok
      exact absurd hok (by simp [Except.map])
  | failed hsent houtcome =>
    rw [houtcome, ← hsent.left_eq, htaken]
    rfl

/-- Runs that send the same and end alike leave the sink alike. -/
theorem Delivers.sink_eq (h : run.Delivers sink) (h' : other.Delivers sink)
    (hsent : run.sent = other.sent) (hends : run.outcome.isOk = other.outcome.isOk) :
    run.sink = other.sink := by
  obtain ⟨taken, htaken, hrun⟩ := h
  obtain ⟨taken', htaken', hother⟩ := h'
  rw [hsent, htaken'] at htaken
  obtain rfl : taken' = taken := congrArg Prod.snd htaken
  rw [hends] at hrun
  split at hother
  next hok =>
    rw [if_pos hok, hother] at hrun
    exact (congrArg Prod.snd hrun).symm
  next hfailed =>
    rw [if_neg hfailed] at hrun
    exact hrun.trans hother.symm

end Run

namespace Referee

variable [Supply σ] {r : Referee σ κ}

/-- **A run delivers its reports to a sink that never fails.** -/
theorem RunsTo.delivers {run : Run κ} (h : r.RunsTo run) (hsink : Willing r.sink) :
    run.Delivers r.sink := by
  obtain ⟨stepped, hreaches⟩ := h.reaches
  exact hreaches.delivers hsink

/-- So do any number of steps. -/
theorem deliver_actions (r : Referee σ κ) (hsink : Willing r.sink) (n : Nat) :
    deliver r.sink (Run.sentBy (r.actions n)) = (.ok (), (r.afterSteps n).sink) := by
  obtain ⟨taken, htaken, -⟩ := hsink.deliver_ok (Run.sentBy (r.actions n))
  rw [← (r.receives_afterSteps n).left_eq, htaken]

end Referee
end KingCheck
