import KingCheck.Proofs.Board.RoundTrip
import KingCheck.Proofs.Output.Delivery
import KingCheck.Proofs.Referee.Transition
import Mathlib.Logic.Function.Iterate

/-!
# Steps in a row

A referee may be asked for any number of steps, also after a step that failed.  `Accounted`
says what is true of it then, whatever its source and its sink do: every drawing it read is
judged, left out or waiting, and the reports that the sink took are numbered from 1.  It is
shown of one step by the ways a step can go, and of all steps by induction.
-/
namespace KingCheck

namespace Run

/-- The answers that some actions got. -/
def readBy (actions : List Action) : List Answer := actions.filterMap fun
  | .read answer => some answer
  | _ => none

/-- The drawings that some actions got. -/
def drawnBy (actions : List Action) : List Drawing := (readBy actions).filterMap fun
  | .rows rows => some rows
  | _ => none

theorem readBy_append (first next : List Action) :
    readBy (first ++ next) = readBy first ++ readBy next := List.filterMap_append

theorem drawnBy_append (first next : List Action) :
    drawnBy (first ++ next) = drawnBy first ++ drawnBy next := by
  rw [drawnBy, readBy_append, List.filterMap_append]
  rfl

end Run

namespace Referee

open ReportSink (deliver)
open Run (readBy drawnBy sentBy)

variable {σ κ : Type} {r : Referee σ κ}

@[simp] theorem readBy_judgingActions (board : Board) (j : Judgement) (report : Report) :
    readBy (judgingActions board j report) = [] := by
  rw [readBy, List.filterMap_eq_nil_iff]
  intro action haction
  rw [judgingActions, List.mem_append, List.mem_map] at haction
  rcases haction with ⟨event, -, rfl⟩ | hrest
  · rfl
  · simp only [List.mem_cons, List.not_mem_nil, or_false] at hrest
    rcases hrest with rfl | rfl <;> rfl

variable [Supply σ] [ReportSink κ]

/-- The referee after some steps, whatever they came to. -/
def afterSteps (r : Referee σ κ) (n : Nat) : Referee σ κ := (fun r => r.step.next)^[n] r

/-- The first steps, in order. -/
def steps (r : Referee σ κ) (n : Nat) : List (Step σ κ) :=
  (List.range n).map fun i => (r.afterSteps i).step

/-- What is done in the first steps. -/
def actions (r : Referee σ κ) (n : Nat) : List Action := (r.steps n).flatMap Step.actions

theorem afterSteps_succ (r : Referee σ κ) (n : Nat) :
    r.afterSteps (n + 1) = (r.afterSteps n).step.next := Function.iterate_succ_apply' _ n r

theorem steps_succ (r : Referee σ κ) (n : Nat) :
    r.steps (n + 1) = r.steps n ++ [(r.afterSteps n).step] := by
  rw [steps, List.range_succ, List.map_append]
  rfl

theorem actions_succ (r : Referee σ κ) (n : Nat) :
    r.actions (n + 1) = r.actions n ++ (r.afterSteps n).step.actions := by
  rw [actions, steps_succ, List.flatMap_append, List.flatMap_singleton]
  rfl

/-- A reading referee asks the source once and leaves the sink alone. -/
theorem step_of_reading (hphase : r.phase = .reading) :
    readBy r.step.actions = [(Supply.next r.source).1] ∧
      r.step.next.source = (Supply.next r.source).2 ∧
      sentBy r.step.actions = [] ∧ r.step.next.sink = r.sink := by
  have hstep := r.transition_step
  generalize r.step = s at hstep ⊢
  cases hstep with
  | failed _ hnext | exhausted _ hnext | cleared _ hnext | taken _ hnext =>
    rw [hnext]
    exact ⟨rfl, rfl, rfl, rfl⟩
  | aborted hrefused | skipped hrefused =>
    cases hrefused with
    | drawing _ hnext =>
      rw [hnext]
      exact ⟨rfl, rfl, rfl, rfl⟩
    | kings hwaits => simp [hphase] at hwaits
  | sent hwaits | unsent hwaits | idle hwaits => simp [hphase] at hwaits

/-- A referee that judges leaves the source alone and sends one report at most. -/
theorem step_of_evaluating {board : Board} (hphase : r.phase = .evaluating board) :
    readBy r.step.actions = [] ∧ r.step.next.source = r.source ∧
      (sentBy r.step.actions).length ≤ 1 := by
  have hstep := r.transition_step
  generalize r.step = s at hstep ⊢
  cases hstep with
  | failed hreads | exhausted hreads | cleared hreads | taken hreads | idle hreads =>
    simp [hphase] at hreads
  | aborted hrefused | skipped hrefused =>
    cases hrefused with
    | drawing hreads => simp [hphase] at hreads
    | kings => exact ⟨rfl, rfl, Nat.zero_le 1⟩
  | sent | unsent => simp

/-- A step without an error sends nothing, or one report, which the sink takes. -/
theorem sends_of_step_ok (hok : r.step.outcome.isOk = true) :
    (sentBy r.step.actions = [] ∧ r.step.next.sink = r.sink ∧
      r.step.next.summary.games = r.summary.games) ∨
    ∃ report, sentBy r.step.actions = [report] ∧ report.game = r.summary.games + 1 ∧
      ReportSink.emit r.sink report = (.ok (), r.step.next.sink) ∧
      r.step.next.summary.games = r.summary.games + 1 := by
  have hstep := r.transition_step
  generalize r.step = s at hstep hok ⊢
  cases hstep with
  | failed | aborted | unsent => simp [Except.isOk, Except.toBool] at hok
  | exhausted | cleared | taken | idle => exact .inl ⟨rfl, rfl, rfl⟩
  | skipped hrefused =>
    refine .inl ⟨hrefused.sentBy_append_note _, hrefused.sink_eq, ?_⟩
    cases hrefused <;> rfl
  | sent _ _ hemit => exact .inr ⟨_, sentBy_judgingActions _ _ _, rfl, hemit, rfl⟩

/-- What is true of a referee after some steps: `first` is the sink it began with. -/
structure Accounted (first : κ) (history : List (Step σ κ)) (r : Referee σ κ) : Prop where
  reading : r.phase = .reading → r.boardsRead = r.summary.games + r.summary.skipped
  evaluating : ∀ board, r.phase = .evaluating board →
    r.boardsRead = r.summary.games + r.summary.skipped + 1
  waiting : ∀ board, r.phase = .evaluating board → board.isEmpty = false ∧
    ∃ rows, (drawnBy (history.flatMap Step.actions)).getLast? = some rows ∧
      Board.ofRows rows = .ok board
  taken : (∀ s ∈ history, s.outcome.isOk = true) →
    deliver first (sentBy (history.flatMap Step.actions)) = (.ok (), r.sink) ∧
    (sentBy (history.flatMap Step.actions)).map Report.game = List.range' 1 r.summary.games

namespace Accounted

variable {first : κ} {history : List (Step σ κ)}

/-- What a step adds to what was sent keeps the numbers in order. -/
theorem taken_step (h : r.Accounted first history)
    (hok : ∀ s ∈ history ++ [r.step], s.outcome.isOk = true) :
    deliver first (sentBy ((history ++ [r.step]).flatMap Step.actions)) =
        (.ok (), r.step.next.sink) ∧
      (sentBy ((history ++ [r.step]).flatMap Step.actions)).map Report.game =
        List.range' 1 r.step.next.summary.games := by
  obtain ⟨hdeliver, hgames⟩ := h.taken fun s hs => hok s (List.mem_append_left _ hs)
  have hlast : r.step.outcome.isOk = true := hok r.step (by simp)
  rw [List.flatMap_append, List.flatMap_singleton, Run.sentBy_append, List.map_append, hgames,
    ReportSink.deliver_append hdeliver]
  rcases sends_of_step_ok hlast with ⟨hnone, hsink, hsame⟩ | ⟨report, hone, hnumber, hemit, hnext⟩
  · rw [hnone, hsink, hsame]
    exact ⟨rfl, List.append_nil _⟩
  · rw [hone, ReportSink.deliver_cons_of_ok hemit, hnext, List.range'_1_concat, List.map_singleton,
      hnumber, Nat.add_comm 1]
    exact ⟨rfl, rfl⟩

/-- A referee that reads again has judged a board or left one out. -/
theorem reading_step (h : r.Accounted first history) (hphase : r.step.next.phase = .reading) :
    r.step.next.boardsRead = r.step.next.summary.games + r.step.next.summary.skipped := by
  have hstep := r.transition_step
  generalize r.step = s at hstep hphase ⊢
  cases hstep with
  | failed | exhausted | cleared | taken | aborted | unsent => simp at hphase
  | idle hdone => simp [hdone] at hphase
  | skipped hrefused =>
    cases hrefused with
    | drawing hreads => simp only [h.reading hreads, Nat.add_assoc]
    | kings hwaits => simp only [h.evaluating _ hwaits, Nat.add_assoc]
  | sent hwaits => simp only [h.evaluating _ hwaits, Nat.add_right_comm]

/-- A board that waits was just read. -/
theorem evaluating_step (h : r.Accounted first history) {board : Board}
    (hphase : r.step.next.phase = .evaluating board) :
    r.step.next.boardsRead = r.step.next.summary.games + r.step.next.summary.skipped + 1 ∧
      board.isEmpty = false ∧
      ∃ rows, (drawnBy r.step.actions).getLast? = some rows ∧ Board.ofRows rows = .ok board := by
  have hstep := r.transition_step
  generalize r.step = s at hstep hphase ⊢
  cases hstep with
  | failed | exhausted | cleared | aborted | skipped | sent | unsent => simp at hphase
  | idle hdone => simp [hdone] at hphase
  | taken hreads _ hrows hempty =>
    obtain rfl := Phase.evaluating.inj hphase
    exact ⟨by simp only [h.reading hreads], hempty, _, rfl, hrows⟩

/-- **One more step keeps the account.** -/
theorem step (h : r.Accounted first history) :
    r.step.next.Accounted first (history ++ [r.step]) where
  reading := h.reading_step
  evaluating := fun board hphase => (h.evaluating_step hphase).1
  waiting := by
    intro board hphase
    obtain ⟨-, hempty, rows, hlast, hrows⟩ := h.evaluating_step hphase
    refine ⟨hempty, rows, ?_, hrows⟩
    rw [List.flatMap_append, List.flatMap_singleton, Run.drawnBy_append, List.getLast?_append,
      hlast]
    rfl
  taken := h.taken_step

end Accounted

/-- **The account is right after any number of steps.** -/
theorem accounted_afterSteps (source : σ) (sink : κ) (options : Options) (n : Nat) :
    ((⟨source, sink, options, .reading, 0, {}⟩ : Referee σ κ).afterSteps n).Accounted sink
      ((⟨source, sink, options, .reading, 0, {}⟩ : Referee σ κ).steps n) := by
  induction n with
  | zero =>
    refine ⟨fun _ => rfl, ?_, ?_, fun _ => ⟨rfl, rfl⟩⟩
    · intro board hphase
      simp [afterSteps] at hphase
    · intro board hphase
      simp [afterSteps] at hphase
  | succ n ih =>
    rw [afterSteps_succ, steps_succ]
    exact ih.step

/-- **After any number of steps the counts agree with what was done.**  Every drawing that
was read is judged or left out, but for a board that waits: it is the last drawing's and
has a piece.  While no step failed, the sink took all that was sent to it, numbered from 1
without a gap.  The next step asks the source once and sends nothing, if the referee reads;
it asks for nothing and sends one report at most, if a board waits. -/
theorem counts_afterSteps (source : σ) (sink : κ) (options : Options) (n : Nat) :
    let start : Referee σ κ := { source, sink, options }
    let r := start.afterSteps n
    (r.phase = .reading → r.boardsRead = r.summary.games + r.summary.skipped) ∧
    (∀ board, r.phase = .evaluating board →
      r.boardsRead = r.summary.games + r.summary.skipped + 1 ∧ board.isEmpty = false ∧
      ∃ rows, (drawnBy (start.actions n)).getLast? = some rows ∧ Board.ofRows rows = .ok board) ∧
    ((∀ s ∈ start.steps n, s.outcome.isOk = true) →
      deliver sink (sentBy (start.actions n)) = (.ok (), r.sink) ∧
      (sentBy (start.actions n)).map Report.game = List.range' 1 r.summary.games) ∧
    (r.phase = .reading →
      readBy r.step.actions = [(Supply.next r.source).1] ∧
      r.step.next.source = (Supply.next r.source).2 ∧
      sentBy r.step.actions = [] ∧ r.step.next.sink = r.sink) ∧
    (∀ board, r.phase = .evaluating board →
      readBy r.step.actions = [] ∧ r.step.next.source = r.source ∧
      (sentBy r.step.actions).length ≤ 1) := by
  intro start r
  have haccount : r.Accounted sink (start.steps n) := accounted_afterSteps source sink options n
  refine ⟨haccount.reading, ?_, haccount.taken, step_of_reading, fun _ => step_of_evaluating⟩
  intro board hphase
  exact ⟨haccount.evaluating board hphase, haccount.waiting board hphase⟩

/-- Two kings, then a drawing of one row that is left out, then two kings again: after three
steps the referee reads, after four the last board waits. -/
theorem counts_afterSteps_shortSecond :
    let start : Referee (List Answer) Output.ReportList :=
      { source := [.rows Drawing.twoKings, .rows ["k"], .rows Drawing.twoKings], sink := {},
        options := ⟨.skip, .ignore⟩ }
    let board := Board.ofCells Drawing.twoKings.cell
    (start.afterSteps 3).phase = .reading ∧ (start.afterSteps 4).phase = .evaluating board ∧
    (∀ s ∈ start.steps 4, s.outcome.isOk = true) ∧
    (start.afterSteps 3).boardsRead = 2 ∧ (start.afterSteps 4).boardsRead = 3 ∧
    (sentBy (start.actions 4)).map Report.game = [1] ∧
    (readBy (start.afterSteps 3).step.actions).length = 1 ∧
    readBy (start.afterSteps 4).step.actions = [] := by
  intro start board
  have hreads : (start.afterSteps 3).phase = .reading := by decide +kernel
  have hwaits : (start.afterSteps 4).phase = .evaluating board := by decide +kernel
  have hcounts : (start.afterSteps 4).summary = ⟨1, 1⟩ ∧
      (start.afterSteps 3).summary = ⟨1, 1⟩ := by decide +kernel
  have hok : ∀ s ∈ start.steps 4, s.outcome.isOk = true := by
    decide +kernel
  obtain ⟨hthree, -, -, hask, -⟩ :=
    counts_afterSteps start.source start.sink start.options 3
  obtain ⟨-, hfour, hsent, -, hjudge⟩ :=
    counts_afterSteps start.source start.sink start.options 4
  refine ⟨hreads, hwaits, hok, ?_, ?_, ?_, ?_, ?_⟩
  · exact (hthree hreads).trans (by rw [hcounts.2]; rfl)
  · exact (hfour board hwaits).1.trans (by rw [hcounts.1]; rfl)
  · exact (hsent hok).2.trans (by rw [hcounts.1]; rfl)
  · rw [(hask hreads).1]
    rfl
  · exact (hjudge board hwaits).1

end Referee
end KingCheck
