import KingCheck.Proofs.Referee.Abort

/-!
# Runs that leave bad boards out

Leaving bad boards out of a run is the same as taking them out of the source before it.
The two runs go through the answers side by side; they agree on all that they show but
the number of boards left out, which is the number of refused boards that one of the
sources has and the other has not.
-/
namespace KingCheck

/-- How many boards a run leaves out that does not stop at bad boards. -/
def Answer.refusedBefore (policy : MissingKing) (answers : List Answer) : Nat :=
  (answers.takeWhile fun a => !a.isFinal policy).countP (·.isRefused policy)

/-- The answers without the boards that are refused. -/
def Answer.withoutRefused (policy : MissingKing) (answers : List Answer) : List Answer :=
  answers.filter fun a => !a.isRefused policy

namespace Answer

variable {policy : MissingKing} {a : Answer} {answers : List Answer}

theorem refusedBefore_cons_of_refused {reason : BoardError} (h : a.fate policy = .refused reason) :
    refusedBefore policy (a :: answers) = refusedBefore policy answers + 1 := by
  simp [refusedBefore, isFinal, isRefused, h]

theorem refusedBefore_cons_of_judged {board : Board} {j : Judgement}
    (h : a.fate policy = .judged board j) :
    refusedBefore policy (a :: answers) = refusedBefore policy answers := by
  simp [refusedBefore, isFinal, isRefused, h]

theorem refusedBefore_cons_of_isFinal (h : a.isFinal policy = true) :
    refusedBefore policy (a :: answers) = 0 := by
  simp [refusedBefore, h]

theorem withoutRefused_cons_of_refused {reason : BoardError} (h : a.fate policy = .refused reason) :
    withoutRefused policy (a :: answers) = withoutRefused policy answers := by
  simp [withoutRefused, isRefused, h]

theorem withoutRefused_cons (h : a.isRefused policy = false) :
    withoutRefused policy (a :: answers) = a :: withoutRefused policy answers := by
  simp [withoutRefused, h]

end Answer

/-- Two runs show the same, but for the number of boards left out. -/
structure Run.SameBut {κ : Type} (skipped : Nat) (run other : Run κ) : Prop where
  sent : run.sent = other.sent
  sink : run.sink = other.sink
  finishes : run.finishes = other.finishes
  outcome : run.outcome = other.outcome.map fun summary => { summary with skipped }

namespace Run.SameBut

variable {κ : Type} {run other : Run κ} {skipped : Nat}

/-- Doing the same before keeps two runs the same. -/
theorem after (h : run.SameBut skipped other) (done : List Action) :
    (run.after done).SameBut skipped (other.after done) where
  sent := by rw [sent_after, sent_after, h.sent]
  sink := h.sink
  finishes := by rw [finishes_after, finishes_after, h.finishes]
  outcome := h.outcome

/-- What neither sends a report nor tells the end does not show. -/
theorem after_left (h : run.SameBut skipped other) {done : List Action}
    (hsent : Run.sentBy done = []) (hfinish : done.count .finish = 0) :
    (run.after done).SameBut skipped other where
  sent := by rw [sent_after, hsent, List.nil_append, h.sent]
  sink := h.sink
  finishes := by rw [finishes_after, hfinish, Nat.zero_add, h.finishes]
  outcome := h.outcome

end Run.SameBut

namespace Referee

open ReportSink (Willing)

variable {κ : Type} [ReportSink κ]

/-- Two referees that read, one of which leaves bad boards out while the other has none in
its source. -/
structure Alongside (answers : List Answer) (r strict : Referee (List Answer) κ) : Prop where
  phase : r.phase = .reading
  strict_phase : strict.phase = .reading
  source : r.source = answers
  strict_source : strict.source = Answer.withoutRefused r.options.missingKing answers
  skip : r.options.onMalformed = .skip
  missingKing : strict.options.missingKing = r.options.missingKing
  sink : strict.sink = r.sink
  games : strict.summary.games = r.summary.games
  willing : Willing r.sink

namespace Alongside

variable {a : Answer} {answers : List Answer} {r strict : Referee (List Answer) κ}

theorem next_eq (h : Alongside (a :: answers) r strict) :
    BoardSource.next r.source = (a, answers) := by
  rw [h.source]
  rfl

theorem strict_next_eq (h : Alongside (a :: answers) r strict)
    (hkept : a.isRefused r.options.missingKing = false) :
    BoardSource.next strict.source = (a, Answer.withoutRefused r.options.missingKing answers) := by
  rw [h.strict_source, Answer.withoutRefused_cons hkept]
  rfl

/-- A refused board is passed over by one referee alone. -/
theorem skipping (h : Alongside (a :: answers) r strict) {reason : BoardError}
    (hfate : a.fate r.options.missingKing = .refused reason) :
    Alongside answers (r.skipping answers) strict where
  phase := h.phase
  strict_phase := h.strict_phase
  source := rfl
  strict_source := by
    rw [h.strict_source, Answer.withoutRefused_cons_of_refused hfate]
    rfl
  skip := h.skip
  missingKing := h.missingKing
  sink := h.sink
  games := h.games
  willing := h.willing

/-- A judged board is reported by both. -/
theorem scoring (h : Alongside (a :: answers) r strict) (report : Report) :
    Alongside answers (r.scoring answers (ReportSink.emit r.sink report).2)
      (strict.scoring (Answer.withoutRefused r.options.missingKing answers)
        (ReportSink.emit strict.sink report).2) where
  phase := h.phase
  strict_phase := h.strict_phase
  source := rfl
  strict_source := rfl
  skip := h.skip
  missingKing := h.missingKing
  sink := by simp only [Referee.scoring, h.sink]
  games := by simp only [Referee.scoring, h.games]
  willing := h.willing.emit report

/-- Closing shows the same. -/
theorem sameBut_close (h : Alongside answers r strict) :
    r.close.SameBut r.summary.skipped strict.close := by
  rw [close_of_willing h.willing, close_of_willing (h.sink ▸ h.willing)]
  refine ⟨rfl, by rw [h.sink], rfl, ?_⟩
  simp only [Except.map, h.games]

/-- **A run that leaves bad boards out is a run over the other boards.** -/
theorem sameBut (h : Alongside answers r strict) :
    r.run.SameBut (r.summary.skipped + Answer.refusedBefore r.options.missingKing answers)
      strict.run := by
  induction answers generalizing r strict with
  | nil =>
    have hnext : BoardSource.next r.source = (.exhausted, []) := by rw [h.source]; rfl
    have hstrict : BoardSource.next strict.source = (.exhausted, []) := by rw [h.strict_source]; rfl
    rw [run_of_reading h.phase hnext, run_of_reading h.strict_phase hstrict]
    exact h.sameBut_close.after _
  | cons a answers ih =>
    have hrun := run_of_reading h.phase h.next_eq
    cases hfate : a.fate r.options.missingKing with
    | refused reason =>
      rw [hrun, hfate, h.skip, Answer.refusedBefore_cons_of_refused hfate]
      have hrest := ih (h.skipping hfate)
      have hcount : (r.skipping answers).summary.skipped +
          Answer.refusedBefore (r.skipping answers).options.missingKing answers =
            r.summary.skipped + (Answer.refusedBefore r.options.missingKing answers + 1) := by
        simp only [Referee.skipping]
        omega
      rw [hcount] at hrest
      exact hrest.after_left rfl rfl
    | judged board j =>
      have hnext := h.strict_next_eq (by simp [Answer.isRefused, hfate])
      have hreport : strict.reportOn j = r.reportOn j := by rw [reportOn, reportOn, h.games]
      rw [run_of_judged h.willing h.phase h.next_eq hfate,
        run_of_judged (h.sink ▸ h.willing) h.strict_phase hnext (h.missingKing ▸ hfate), hreport,
        Answer.refusedBefore_cons_of_judged hfate]
      exact (ih (h.scoring (r.reportOn j))).after _
    | ended =>
      have hnext := h.strict_next_eq (by simp [Answer.isRefused, hfate])
      rw [hrun, hfate, run_of_reading h.strict_phase hnext, h.missingKing, hfate,
        Answer.refusedBefore_cons_of_isFinal (by simp [Answer.isFinal, hfate])]
      exact h.sameBut_close.after _
    | failed failure =>
      have hnext := h.strict_next_eq (by simp [Answer.isRefused, hfate])
      rw [hrun, hfate, run_of_reading h.strict_phase hnext, h.missingKing, hfate]
      exact ⟨rfl, h.sink.symm, rfl, rfl⟩

end Alongside

/-- Where no board of the source is refused, an error is one that the source reported. -/
theorem failed_mem_of_run_error {r : Referee (List Answer) κ} {failure : Failure}
    (hsink : Willing r.sink) (hphase : r.phase = .reading)
    (habort : r.options.onMalformed = .abort)
    (hkept : ∀ a ∈ r.source, a.isRefused r.options.missingKing = false)
    (herror : r.run.outcome = .error failure) : .failed failure ∈ r.source := by
  rw [(run_stopsIn hsink hphase habort).outcome] at herror
  rcases Answer.firstOther_mem r.options.missingKing r.source with hend | hmem
  · rw [hend] at herror
    simp [Answer.fate, Fate.ending] at herror
  · have hnot := hkept _ hmem
    cases hfate : (Answer.firstOther r.options.missingKing r.source).fate r.options.missingKing with
    | failed f =>
      rw [hfate] at herror
      have hsame : f = failure := by simpa [Fate.ending] using herror
      rw [← hsame, ← Answer.fate_eq_failed_iff.1 hfate]
      exact hmem
    | refused reason => simp [Answer.isRefused, hfate] at hnot
    | judged board j => simp [hfate, Fate.ending] at herror
    | ended => simp [hfate, Fate.ending] at herror

/-- **Leaving bad boards out of a run is taking them out of the source before it.**  Only
the number of boards left out tells the two runs apart: it counts the refused boards
before the end.  The sink holds the reports that were sent.  Where bad boards are left out, an
error is always the source's own. -/
theorem run_skip_eq_run_withoutRefused (answers : List Answer) (policy : MissingKing) (sink : κ)
    (hsink : Willing sink) :
    let run := ({ source := answers, sink, options := ⟨.skip, policy⟩ } :
      Referee (List Answer) κ).run
    let strict := ({ source := Answer.withoutRefused policy answers, sink,
                     options := ⟨.abort, policy⟩ } : Referee (List Answer) κ).run
    run.sent = strict.sent ∧ run.sink = strict.sink ∧ run.Delivers sink ∧
    run.finishes = strict.finishes ∧
    (run.outcome = strict.outcome.map fun summary =>
      { summary with skipped := Answer.refusedBefore policy answers }) ∧
    (∀ failure, run.outcome = .error failure → .failed failure ∈ answers) ∧
    ((∀ n reason, .failed (.invalidBoard n reason) ∉ answers) →
      ∀ n reason, run.outcome ≠ .error (.invalidBoard n reason)) := by
  intro run strict
  have halong : Alongside answers
      ({ source := answers, sink, options := ⟨.skip, policy⟩ } : Referee (List Answer) κ)
      ({ source := Answer.withoutRefused policy answers, sink, options := ⟨.abort, policy⟩ }) :=
    ⟨rfl, rfl, rfl, rfl, rfl, rfl, rfl, rfl, hsink⟩
  have hsame : run.SameBut (Answer.refusedBefore policy answers) strict := by
    have := halong.sameBut
    rwa [Nat.zero_add] at this
  have herror : ∀ failure, run.outcome = .error failure → .failed failure ∈ answers := by
    intro failure h
    have hstrict : strict.outcome = .error failure := by
      have houtcome : run.outcome = strict.outcome.map _ := hsame.outcome
      rw [h] at houtcome
      cases hs : strict.outcome with
      | error f => simpa [hs, Except.map] using houtcome.symm
      | ok summary => simp [hs, Except.map] at houtcome
    have hkept : ∀ a ∈ Answer.withoutRefused policy answers, a.isRefused policy = false := by
      intro a ha
      simpa using (List.mem_filter.1 ha).2
    exact (List.mem_filter.1 (failed_mem_of_run_error
      (r := ⟨Answer.withoutRefused policy answers, sink, ⟨.abort, policy⟩, .reading, 0, {}⟩)
      hsink rfl rfl hkept hstrict)).1
  have hdelivers : run.Delivers sink := (runsTo_run _).delivers hsink
  refine ⟨hsame.sent, hsame.sink, hdelivers, hsame.finishes, hsame.outcome, herror, ?_⟩
  intro hown n reason h
  exact hown n reason (herror _ h)

/-- A drawing of one row before a board and one after it: the run over all three sends what
the run over the board sends, and has left out two. -/
theorem run_skip_eq_run_withoutRefused_twoShort :
    let sink : Output.ReportList := {}
    let run := ({ source := [.rows ["k"], .rows Drawing.twoKings, .rows ["K"], .exhausted], sink,
                  options := ⟨.skip, .ignore⟩ } : Referee (List Answer) Output.ReportList).run
    let strict := ({ source := [.rows Drawing.twoKings, .exhausted], sink,
                     options := ⟨.abort, .ignore⟩ } :
      Referee (List Answer) Output.ReportList).run
    Willing sink ∧ run.sent = strict.sent ∧ run.finishes = strict.finishes ∧
    (run.outcome = strict.outcome.map fun summary => { summary with skipped := 2 }) ∧
    ∀ n reason, run.outcome ≠ .error (.invalidBoard n reason) := by
  intro sink run strict
  have hsink : Willing sink := Output.ReportList.willing rfl rfl
  have hkept : Answer.withoutRefused .ignore
      [.rows ["k"], .rows Drawing.twoKings, .rows ["K"], .exhausted] =
        [.rows Drawing.twoKings, .exhausted] := by decide +kernel
  have hcount : Answer.refusedBefore .ignore
      [.rows ["k"], .rows Drawing.twoKings, .rows ["K"], .exhausted] = 2 := by decide +kernel
  have hrun := run_skip_eq_run_withoutRefused
    [.rows ["k"], .rows Drawing.twoKings, .rows ["K"], .exhausted] .ignore sink hsink
  rw [hkept, hcount] at hrun
  obtain ⟨hsent, -, -, hfinishes, houtcome, -, hown⟩ := hrun
  exact ⟨hsink, hsent, hfinishes, houtcome, hown (by simp)⟩

end Referee
end KingCheck
