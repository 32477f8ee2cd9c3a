import KingCheck.Board.Rows
import KingCheck.Input.Source
import KingCheck.Output.Sink
import KingCheck.Referee.Event

/-!
# The referee

The referee takes drawings from a source and sends reports to a sink.  It is either
reading, or about to judge the board it read, or done; one step leads from each to the
next.  A step also tells what it did, in order: the calls of source and sink, and the
events for the log.  `remaining` bounds the steps that are left, so that a run ends.
-/
namespace KingCheck

/-- What the referee is about to do. -/
inductive Phase where
  | reading
  | evaluating (board : Board)
  | terminated
deriving DecidableEq

/-- One thing the referee did. -/
inductive Action where
  /-- It asked the source for rows and got an answer. -/
  | read (answer : Answer)
  /-- It sent a report to the sink. -/
  | emit (report : Report)
  /-- It told the sink that there are no more reports. -/
  | finish
  /-- It noted an event in the log. -/
  | note (event : Event)
deriving DecidableEq

/-- A referee between two steps. -/
structure Referee (σ κ : Type) where
  source : σ
  sink : κ
  options : Options := {}
  phase : Phase := .reading
  boardsRead : Nat := 0
  summary : Summary := {}

/-- What one step came to: whether there is more to do, what was done, and how it left
the referee. -/
structure Step (σ κ : Type) where
  outcome : Except Failure Bool
  actions : List Action
  next : Referee σ κ

namespace Referee

variable {σ κ : Type}

/-- There is nothing left to do. -/
def isTerminated (r : Referee σ κ) : Bool := r.phase == .terminated

/-- Refuse the board that was read last: it ends the run or is left out, as the options
say. -/
def reject (r : Referee σ κ) (reason : BoardError) (done : List Action) : Step σ κ :=
  match r.options.onMalformed with
  | .abort =>
    ⟨.error (.invalidBoard r.boardsRead reason), done, { r with phase := .terminated }⟩
  | .skip =>
    ⟨.ok true, done ++ [.note (.skipped r.boardsRead reason)],
      { r with
        phase := .reading
        summary := { r.summary with skipped := r.summary.skipped + 1 } }⟩

/-- Take the rows of one drawing: a board without pieces ends the stream, any other is
judged next. -/
def take (r : Referee σ κ) (rows : List String) : Step σ κ :=
  let r := { r with boardsRead := r.boardsRead + 1 }
  let done := [Action.read (.rows rows)]
  match Board.ofRows rows with
  | .ok board =>
    if board.isEmpty then ⟨.ok false, done, { r with phase := .terminated }⟩
    else ⟨.ok true, done, { r with phase := .evaluating board }⟩
  | .error reason => r.reject reason done

/-- Ask the source for rows. -/
def read [Supply σ] (r : Referee σ κ) : Step σ κ :=
  match Supply.next r.source with
  | (.rows rows, source) => { r with source }.take rows
  | (.exhausted, source) =>
    ⟨.ok false, [.read .exhausted], { r with source, phase := .terminated }⟩
  | (.failed failure, source) =>
    ⟨.error failure, [.read (.failed failure)], { r with source, phase := .terminated }⟩

/-- The report on a judgement, with the next number. -/
def reportOn (r : Referee σ κ) (j : Judgement) : Report :=
  ⟨r.summary.games + 1, j.verdict, j.attacker⟩

/-- Send the report on a judged board to the sink. -/
def send [ReportSink κ] (r : Referee σ κ) (board : Board) (j : Judgement) : Step σ κ :=
  let report := r.reportOn j
  let done := (judgingEvents board (.ok j)).map Action.note ++
    [.note (.evaluated report), .emit report]
  let r := { r with summary := { r.summary with games := r.summary.games + 1 } }
  match ReportSink.emit r.sink report with
  | (.ok (), sink) => ⟨.ok true, done, { r with sink, phase := .reading }⟩
  | (.error failure, sink) => ⟨.error failure, done, { r with sink, phase := .terminated }⟩

/-- Judge the board that was read last. -/
def judge [ReportSink κ] (r : Referee σ κ) (board : Board) : Step σ κ :=
  match board.evaluate r.options.missingKing with
  | .ok j => r.send board j
  | .error reason => r.reject reason []

/-- One step of the referee.  A referee that is done stays as it is. -/
def step [Supply σ] [ReportSink κ] (r : Referee σ κ) : Step σ κ :=
  match r.phase with
  | .reading => r.read
  | .evaluating board => r.judge board
  | .terminated => ⟨.ok false, [], r⟩

/-- A bound on the steps that are left: two for each drawing, and one for a board that
waits. -/
def remaining [BoardSource σ] (r : Referee σ κ) : Nat :=
  2 * BoardSource.remaining r.source +
    match r.phase with
    | .evaluating _ => 1
    | _ => 0

/-- **Each step after which there is more to do lowers the bound.** -/
theorem remaining_step_lt [BoardSource σ] [ReportSink κ] {r : Referee σ κ}
    (h : r.step.outcome = .ok true) : r.step.next.remaining < r.remaining := by
  rw [step] at h ⊢
  split at h
  next hp =>
    simp only [read] at h ⊢
    split at h
    next rows source hn =>
      have hlt := BoardSource.remaining_lt (s := r.source) (by rw [hn])
      rw [hn] at hlt
      simp only [take, reject] at h ⊢
      repeat' split at h
      all_goals simp_all [remaining] <;> omega
    next => simp at h
    next => simp at h
  next board hp =>
    simp only [judge, send, reject] at h ⊢
    repeat' split at h
    all_goals simp_all [remaining]
  next => simp at h

end Referee
end KingCheck
