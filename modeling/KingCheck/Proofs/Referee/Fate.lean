import KingCheck.Proofs.Output.Willing
import KingCheck.Referee.Run

/-!
# Runs, answer by answer

A board takes the referee two steps, and two different steps may refuse it.  Seen from
outside there is only what becomes of each answer of the source: it is a board that is
judged, or refused, or it ends the stream, or the source failed.  `run_of_reading` says
what a run makes of the next answer, for every source and every sink; the statements
about whole runs are inductions that use nothing else.
-/
namespace KingCheck

/-- What becomes of one answer of a source. -/
inductive Fate where
  /-- It is a board that is judged. -/
  | judged (board : Board) (j : Judgement)
  /-- It is refused as a board. -/
  | refused (reason : BoardError)
  /-- It ends the stream: it is the board without pieces, or there are no more boards. -/
  | ended
  /-- The source failed. -/
  | failed (failure : Failure)
deriving DecidableEq

namespace Answer

/-- What becomes of an answer under a policy. -/
def fate (policy : MissingKing) : Answer → Fate
  | .exhausted => .ended
  | .failed failure => .failed failure
  | .rows drawing =>
    match Board.ofRows drawing with
    | .error reason => .refused reason
    | .ok board =>
      if board.isEmpty then .ended
      else
        match board.evaluate policy with
        | .ok j => .judged board j
        | .error reason => .refused reason

variable (policy : MissingKing) (a : Answer)

/-- The judgement on an answer that is judged. -/
def judgement? : Option Judgement :=
  match a.fate policy with
  | .judged _ j => some j
  | _ => none

/-- The answer is a board that is refused. -/
def isRefused : Bool :=
  match a.fate policy with
  | .refused _ => true
  | _ => false

/-- The answer is the last that is asked for, whatever becomes of refused boards. -/
def isFinal : Bool :=
  match a.fate policy with
  | .ended => true
  | .failed _ => true
  | _ => false

variable {policy a}

/-- Only a source that fails has the fate of one that failed. -/
theorem fate_eq_failed_iff {failure : Failure} :
    a.fate policy = .failed failure ↔ a = .failed failure := by
  rcases a with drawing | _ | f
  · simp only [fate]
    repeat' split
    all_goals simp
  · simp [fate]
  · simp [fate]

end Answer

namespace Run

variable {κ : Type} (run : Run κ)

/-- The reports that are sent by some actions. -/
def sentBy (actions : List Action) : List Report := actions.filterMap fun
  | .emit report => some report
  | _ => none

theorem sentBy_append (first next : List Action) :
    sentBy (first ++ next) = sentBy first ++ sentBy next := List.filterMap_append

@[simp] theorem sent_after (done : List Action) : (run.after done).sent = sentBy done ++ run.sent :=
  sentBy_append done run.actions

@[simp] theorem sentBy_cons_read (a : Answer) (done : List Action) :
    sentBy (.read a :: done) = sentBy done := rfl

@[simp] theorem finishes_after (done : List Action) :
    (run.after done).finishes = done.count .finish + run.finishes := by
  simp [finishes, after]

end Run

namespace Referee

open ReportSink (Willing)

variable {σ κ : Type} {r : Referee σ κ}

/-- What is done when a board is judged: the log's entries come before the report. -/
def judgingActions (board : Board) (j : Judgement) (report : Report) : List Action :=
  (judgingEvents board (.ok j)).map Action.note ++ [.note (.evaluated report), .emit report]

@[simp] theorem sentBy_judgingActions (board : Board) (j : Judgement) (report : Report) :
    Run.sentBy (judgingActions board j report) = [report] := by
  have hnotes : Run.sentBy ((judgingEvents board (.ok j)).map Action.note) = [] := by
    rw [Run.sentBy, List.filterMap_map]
    exact List.filterMap_eq_nil_iff.2 fun _ _ => rfl
  rw [judgingActions, Run.sentBy_append, hnotes]
  rfl

@[simp] theorem count_finish_judgingActions (board : Board) (j : Judgement) (report : Report) :
    (judgingActions board j report).count .finish = 0 := by
  rw [List.count_eq_zero]
  simp [judgingActions]

/-- The referee after a board was left out. -/
def skipping (r : Referee σ κ) (source : σ) : Referee σ κ :=
  { r with
    source
    boardsRead := r.boardsRead + 1
    summary := { r.summary with skipped := r.summary.skipped + 1 } }

/-- The referee after a report was taken. -/
def scoring (r : Referee σ κ) (source : σ) (sink : κ) : Referee σ κ :=
  { r with
    source
    sink
    boardsRead := r.boardsRead + 1
    summary := { r.summary with games := r.summary.games + 1 } }

theorem take_of_error {drawing : Drawing} {reason : BoardError}
    (h : Board.ofRows drawing = .error reason) : r.take drawing =
      ({ r with boardsRead := r.boardsRead + 1 } : Referee σ κ).reject reason
        [.read (.rows drawing)] := by
  simp only [take, h]

theorem take_of_isEmpty {drawing : Drawing} {board : Board} (h : Board.ofRows drawing = .ok board)
    (hempty : board.isEmpty = true) : r.take drawing =
      ⟨.ok false, [.read (.rows drawing)],
        { r with boardsRead := r.boardsRead + 1, phase := .terminated }⟩ := by
  simp only [take, h, hempty, if_true]

theorem take_of_not_isEmpty {drawing : Drawing} {board : Board}
    (h : Board.ofRows drawing = .ok board) (hempty : board.isEmpty = false) : r.take drawing =
      ⟨.ok true, [.read (.rows drawing)],
        { r with boardsRead := r.boardsRead + 1, phase := .evaluating board }⟩ := by
  simp only [take, h, hempty, Bool.false_eq_true, if_false]

variable [ReportSink κ]

/-- A sink that never fails is told the end once, and the counts are the outcome. -/
theorem close_of_willing (hsink : Willing r.sink) :
    r.close = ⟨.ok r.summary, [.finish, .note (.finished r.summary)],
      (ReportSink.finish r.sink).2⟩ := by
  have hok := hsink.finish_ok
  rw [close]
  rcases hfinish : ReportSink.finish r.sink with ⟨outcome, sink⟩
  rw [hfinish] at hok
  simp only at hok
  subst hok
  rfl

variable [BoardSource σ] {a : Answer} {source : σ}

/-- What a run makes of a refused board: the options say whether it goes on. -/
def afterReject (r : Referee σ κ) (reason : BoardError) (done : List Action) : Run κ :=
  match r.options.onMalformed with
  | .abort => ⟨.error (.invalidBoard r.boardsRead reason), done, r.sink⟩
  | .skip =>
    ({ r with
      phase := .reading
      summary := { r.summary with skipped := r.summary.skipped + 1 } } : Referee σ κ).run.after
        (done ++ [.note (.skipped r.boardsRead reason)])

theorem run_of_reject {next : Referee σ κ} {reason : BoardError} {done : List Action}
    (hstep : r.step = next.reject reason done) : r.run = next.afterReject reason done := by
  rw [run_eq, hstep, reject, afterReject]
  cases next.options.onMalformed <;> rfl

/-- A board that waits is judged. -/
theorem run_of_evaluating {board : Board} (hphase : r.phase = .evaluating board) :
    r.run =
      match board.evaluate r.options.missingKing with
      | .error reason => r.afterReject reason []
      | .ok j =>
        match ReportSink.emit r.sink (r.reportOn j) with
        | (.ok (), sink) =>
          ({ r with
            sink
            phase := .reading
            summary := { r.summary with games := r.summary.games + 1 } } : Referee σ κ).run.after
              (judgingActions board j (r.reportOn j))
        | (.error failure, sink) =>
          ⟨.error failure, judgingActions board j (r.reportOn j), sink⟩ := by
  have hstep : r.step = r.judge board := by rw [step, hphase]
  cases hj : board.evaluate r.options.missingKing with
  | error reason =>
    rw [judge, hj] at hstep
    exact run_of_reject hstep
  | ok j =>
    rw [run_eq, hstep, judge, hj]
    simp only [send]
    rcases ReportSink.emit r.sink (r.reportOn j) with ⟨_ | _, sink⟩ <;> rfl

/-- **What a run makes of the next answer.** -/
theorem run_of_reading (hphase : r.phase = .reading)
    (hnext : BoardSource.next r.source = (a, source)) :
    r.run =
      match a.fate r.options.missingKing with
      | .failed failure => ⟨.error failure, [.read a], r.sink⟩
      | .ended => r.close.after [.read a]
      | .refused reason =>
        match r.options.onMalformed with
        | .abort => ⟨.error (.invalidBoard (r.boardsRead + 1) reason), [.read a], r.sink⟩
        | .skip =>
          (r.skipping source).run.after [.read a, .note (.skipped (r.boardsRead + 1) reason)]
      | .judged board j =>
        match ReportSink.emit r.sink (r.reportOn j) with
        | (.ok (), sink) =>
          (r.scoring source sink).run.after (.read a :: judgingActions board j (r.reportOn j))
        | (.error failure, sink) =>
          ⟨.error failure, .read a :: judgingActions board j (r.reportOn j), sink⟩ := by
  have hstep : r.step = r.read := by rw [step, hphase]
  rw [read, hnext] at hstep
  cases a with
  | exhausted =>
    rw [run_eq, hstep]
    rfl
  | failed failure =>
    rw [run_eq, hstep]
    rfl
  | rows drawing =>
    change r.step = ({ r with source } : Referee σ κ).take drawing at hstep
    cases hrows : Board.ofRows drawing with
    | error reason =>
      rw [take_of_error hrows] at hstep
      rw [run_of_reject hstep, afterReject]
      simp only [Answer.fate, hrows]
      cases r.options.onMalformed <;> simp [skipping, hphase]
    | ok board =>
      cases hempty : board.isEmpty with
      | true =>
        rw [take_of_isEmpty hrows hempty] at hstep
        simp only [Answer.fate, hrows, hempty, if_true]
        rw [run_eq, hstep]
        rfl
      | false =>
        rw [take_of_not_isEmpty hrows hempty] at hstep
        rw [run_eq, hstep, run_of_evaluating rfl]
        simp only [Answer.fate, hrows, hempty, Bool.false_eq_true, if_false]
        cases board.evaluate r.options.missingKing with
        | error reason =>
          simp only [afterReject]
          cases r.options.onMalformed <;> simp [skipping, hphase, Run.after]
        | ok j =>
          simp only [reportOn]
          rcases ReportSink.emit r.sink _ with ⟨_ | _, sink⟩ <;> simp [scoring, hphase, Run.after]

/-- A sink that never fails takes the report, and the run goes on. -/
theorem run_of_judged (hsink : Willing r.sink) (hphase : r.phase = .reading)
    (hnext : BoardSource.next r.source = (a, source)) {board : Board} {j : Judgement}
    (hfate : a.fate r.options.missingKing = .judged board j) :
    r.run = (r.scoring source (ReportSink.emit r.sink (r.reportOn j)).2).run.after
      (.read a :: judgingActions board j (r.reportOn j)) := by
  have hok := hsink.emit_ok (r.reportOn j)
  rw [run_of_reading hphase hnext, hfate]
  rcases hemit : ReportSink.emit r.sink (r.reportOn j) with ⟨outcome, sink⟩
  rw [hemit] at hok
  simp only at hok
  subst hok
  simp only [hemit]

end Referee
end KingCheck
