import KingCheck.Proofs.Referee.Fate

/-!
# Transitions

A step asks the source for rows, judges the board that waits, or does nothing, and each of
these can go several ways.  `Transition` lists the ways with all that they do.  A step goes
one of them (`transition_step`), and a way says what the step is (`Transition.step_eq`), so
that what every step keeps is shown case by case and the step itself stays folded.  A board
may be refused at two places, as a drawing and for its kings; what comes of it is the same.
-/
namespace KingCheck.Referee

variable {σ κ : Type} [Supply σ] [ReportSink κ]

/-- A board is refused in a step: `done` is what the step has done by then, and `next` is
the referee that refuses it. -/
inductive Refuses (r : Referee σ κ) : Referee σ κ → BoardError → List Action → Prop where
  /-- The rows that were read draw no board. -/
  | drawing {source : σ} {rows : Drawing} {reason : BoardError} (hphase : r.phase = .reading)
      (hnext : Supply.next r.source = (.rows rows, source))
      (hrows : Board.ofRows rows = .error reason) :
      Refuses r { r with source, boardsRead := r.boardsRead + 1 } reason [.read (.rows rows)]
  /-- The board that waits has a wrong number of kings. -/
  | kings {board : Board} {reason : BoardError} (hphase : r.phase = .evaluating board)
      (hjudged : board.evaluate r.options.missingKing = .error reason) : Refuses r r reason []

/-- The ways that a step can go. -/
inductive Transition (r : Referee σ κ) : Step σ κ → Prop where
  /-- The source fails. -/
  | failed {source : σ} {failure : Failure} (hphase : r.phase = .reading)
      (hnext : Supply.next r.source = (.failed failure, source)) :
      Transition r ⟨.error failure, [.read (.failed failure)],
        { r with source, phase := .terminated }⟩
  /-- There are no more drawings. -/
  | exhausted {source : σ} (hphase : r.phase = .reading)
      (hnext : Supply.next r.source = (.exhausted, source)) :
      Transition r ⟨.ok false, [.read .exhausted], { r with source, phase := .terminated }⟩
  /-- A board without pieces ends the stream. -/
  | cleared {source : σ} {rows : Drawing} {board : Board} (hphase : r.phase = .reading)
      (hnext : Supply.next r.source = (.rows rows, source))
      (hrows : Board.ofRows rows = .ok board) (hempty : board.isEmpty = true) :
      Transition r ⟨.ok false, [.read (.rows rows)],
        { r with source, boardsRead := r.boardsRead + 1, phase := .terminated }⟩
  /-- Any other board waits to be judged. -/
  | taken {source : σ} {rows : Drawing} {board : Board} (hphase : r.phase = .reading)
      (hnext : Supply.next r.source = (.rows rows, source))
      (hrows : Board.ofRows rows = .ok board) (hempty : board.isEmpty = false) :
      Transition r ⟨.ok true, [.read (.rows rows)],
        { r with source, boardsRead := r.boardsRead + 1, phase := .evaluating board }⟩
  /-- A refused board ends the run. -/
  | aborted {next : Referee σ κ} {reason : BoardError} {done : List Action}
      (hrefused : r.Refuses next reason done) (habort : r.options.onMalformed = .abort) :
      Transition r ⟨.error (.invalidBoard next.boardsRead reason), done,
        { next with phase := .terminated }⟩
  /-- A refused board is left out. -/
  | skipped {next : Referee σ κ} {reason : BoardError} {done : List Action}
      (hrefused : r.Refuses next reason done) (hskip : r.options.onMalformed = .skip) :
      Transition r ⟨.ok true, done ++ [.note (.skipped next.boardsRead reason)],
        { next with
          phase := .reading
          summary := { next.summary with skipped := next.summary.skipped + 1 } }⟩
  /-- The report on a board is taken. -/
  | sent {board : Board} {j : Judgement} {sink : κ} (hphase : r.phase = .evaluating board)
      (hjudged : board.evaluate r.options.missingKing = .ok j)
      (hemit : ReportSink.emit r.sink (r.reportOn j) = (.ok (), sink)) :
      Transition r ⟨.ok true, judgingActions board j (r.reportOn j),
        { r with
          sink
          phase := .reading
          summary := { r.summary with games := r.summary.games + 1 } }⟩
  /-- The report on a board is not taken. -/
  | unsent {board : Board} {j : Judgement} {failure : Failure} {sink : κ}
      (hphase : r.phase = .evaluating board)
      (hjudged : board.evaluate r.options.missingKing = .ok j)
      (hemit : ReportSink.emit r.sink (r.reportOn j) = (.error failure, sink)) :
      Transition r ⟨.error failure, judgingActions board j (r.reportOn j),
        { r with
          sink
          phase := .terminated
          summary := { r.summary with games := r.summary.games + 1 } }⟩
  /-- There is nothing left to do. -/
  | idle (hphase : r.phase = .terminated) : Transition r ⟨.ok false, [], r⟩

variable {r : Referee σ κ}

namespace Refuses

variable {next : Referee σ κ} {reason : BoardError} {done : List Action}

omit [ReportSink κ] in
/-- A referee that refuses a board has the policies of the one that read it. -/
theorem options_eq (h : r.Refuses next reason done) : next.options = r.options := by
  cases h <;> rfl

omit [ReportSink κ] in
/-- A refusal leaves the sink alone. -/
theorem sink_eq (h : r.Refuses next reason done) : next.sink = r.sink := by
  cases h <;> rfl

omit [ReportSink κ] in
/-- A refusal sends nothing. -/
theorem sentBy_eq_nil (h : r.Refuses next reason done) : Run.sentBy done = [] := by
  cases h <;> rfl

omit [ReportSink κ] in
/-- Nor does what is noted of it. -/
theorem sentBy_append_note (h : r.Refuses next reason done) (event : Event) :
    Run.sentBy (done ++ [.note event]) = [] := by
  rw [Run.sentBy_append, h.sentBy_eq_nil]
  rfl

theorem step_eq (h : r.Refuses next reason done) : r.step = next.reject reason done := by
  cases h with
  | drawing hphase hnext hrows => simp only [step, hphase, read, hnext, take_of_error hrows]
  | kings hphase hjudged => simp only [step, hphase, judge, hjudged]

end Refuses

/-- The ways exclude each other. -/
theorem Transition.step_eq {s : Step σ κ} (h : r.Transition s) : r.step = s := by
  cases h with
  | failed hphase hnext | exhausted hphase hnext => simp only [step, hphase, read, hnext]
  | cleared hphase hnext hrows hempty =>
    simp only [step, hphase, read, hnext, take_of_isEmpty hrows hempty]
  | taken hphase hnext hrows hempty =>
    simp only [step, hphase, read, hnext, take_of_not_isEmpty hrows hempty]
  | aborted hrefused habort | skipped hrefused habort =>
    simp only [hrefused.step_eq, reject, hrefused.options_eq, habort]
  | sent hphase hjudged hemit | unsent hphase hjudged hemit =>
    simp only [step, hphase, judge, hjudged, send, hemit, judgingActions]
  | idle hphase => simp only [step, hphase]

theorem Refuses.exists_transition {next : Referee σ κ} {reason : BoardError} {done : List Action}
    (h : r.Refuses next reason done) : ∃ s, r.Transition s := by
  cases hpolicy : r.options.onMalformed with
  | abort => exact ⟨_, .aborted h hpolicy⟩
  | skip => exact ⟨_, .skipped h hpolicy⟩

/-- There always is a way. -/
theorem exists_transition (r : Referee σ κ) : ∃ s, r.Transition s := by
  cases hphase : r.phase with
  | terminated => exact ⟨_, .idle hphase⟩
  | evaluating board =>
    cases hjudged : board.evaluate r.options.missingKing with
    | error reason => exact (Refuses.kings hphase hjudged).exists_transition
    | ok j =>
      rcases hemit : ReportSink.emit r.sink (r.reportOn j) with ⟨failure | _, sink⟩
      · exact ⟨_, .unsent hphase hjudged hemit⟩
      · exact ⟨_, .sent hphase hjudged hemit⟩
  | reading =>
    rcases hnext : Supply.next r.source with ⟨rows | _ | failure, source⟩
    · cases hrows : Board.ofRows rows with
      | error reason => exact (Refuses.drawing hphase hnext hrows).exists_transition
      | ok board =>
        cases hempty : board.isEmpty with
        | true => exact ⟨_, .cleared hphase hnext hrows hempty⟩
        | false => exact ⟨_, .taken hphase hnext hrows hempty⟩
    · exact ⟨_, .exhausted hphase hnext⟩
    · exact ⟨_, .failed hphase hnext⟩

/-- **A step goes one of the nine ways.** -/
theorem transition_step (r : Referee σ κ) : r.Transition r.step := by
  obtain ⟨s, hs⟩ := r.exists_transition
  rwa [hs.step_eq]

theorem transition_of_step_eq {s : Step σ κ} (h : r.step = s) : r.Transition s :=
  h ▸ r.transition_step

end KingCheck.Referee
