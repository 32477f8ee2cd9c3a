import KingCheck.Proofs.Referee.Notes

/-!
# What steps note

Of the drawings that were read all are settled, judged or left out, but for the last, which may
wait, end the stream or end the run (`Leaves`).  `Settled` says what is sent, noted and counted of
those that are settled.  A step settles one drawing at most (`Logged.step`), so that this is right
after any number of steps, whatever the source and the sink do.
-/
namespace KingCheck

namespace Run

/-- The events that some actions noted, in order. -/
def notedBy (actions : List Action) : List Event := actions.filterMap fun
  | .note event => some event
  | _ => none

theorem notedBy_append (first next : List Action) :
    notedBy (first ++ next) = notedBy first ++ notedBy next := List.filterMap_append

end Run

open Run (drawnBy notedBy sentBy)

/-- Judging notes what is worth noting of the kings, and then its report. -/
theorem Referee.notedBy_judgingActions_eq (board : Board) (j : Judgement) (report : Report) :
    notedBy (judgingActions board j report) =
      judgingEvents board (.ok j) ++ [.evaluated report] := by
  rw [judgingActions, Run.notedBy_append, notedBy, List.filterMap_map]
  simp [notedBy]

/-- Judging notes its report last, and no other. -/
theorem Referee.notedBy_judgingActions (board : Board) (j : Judgement) (report : Report) :
    ∃ events, notedBy (judgingActions board j report) = events ++ [.evaluated report] ∧
      events.filterMap Event.report? = [] ∧ events.filterMap Event.skipped? = [] ∧
      ∀ summary, .finished summary ∉ events := by
  refine ⟨judgingEvents board (.ok j), notedBy_judgingActions_eq board j report, ?_⟩
  rw [judgingEvents]
  split <;> simp [Event.report?, Event.skipped?]

/-- The drawing is refused. -/
def Drawing.isRefused (policy : MissingKing) (rows : Drawing) : Bool :=
  (Answer.rows rows).isRefused policy

/-- What is left of the drawings that were read when those are taken away that are judged or left
out: nothing, or the last one. -/
inductive Leaves (options : Options) : Phase → List Drawing → Prop where
  /-- All are settled. -/
  | nothing {phase : Phase} (hphase : ∀ board, phase ≠ .evaluating board) :
      Leaves options phase []
  /-- The last one's board waits. -/
  | waiting {rows : Drawing} {board : Board} (hrows : Board.ofRows rows = .ok board)
      (hempty : board.isEmpty = false) : Leaves options (.evaluating board) [rows]
  /-- The last one is the board without pieces. -/
  | cleared {rows : Drawing} {board : Board} (hrows : Board.ofRows rows = .ok board)
      (hempty : board.isEmpty = true) : Leaves options .terminated [rows]
  /-- The last one is refused, and ends the run. -/
  | aborted {rows : Drawing} {reason : BoardError}
      (hfate : (Answer.rows rows).fate options.missingKing = .refused reason)
      (habort : options.onMalformed = .abort) : Leaves options .terminated [rows]

namespace Leaves

variable {options : Options} {rest : List Drawing} {board : Board}

theorem eq_nil_of_reading (h : Leaves options .reading rest) : rest = [] := by
  cases h
  rfl

theorem eq_of_evaluating (h : Leaves options (.evaluating board) rest) :
    ∃ rows, rest = [rows] ∧ Board.ofRows rows = .ok board ∧ board.isEmpty = false := by
  cases h with
  | nothing hphase => exact absurd rfl (hphase board)
  | waiting hrows hempty => exact ⟨_, rfl, hrows, hempty⟩

end Leaves

/-- Some drawings are settled: each is judged or left out, and what was sent, noted and counted
is what they come to. -/
structure Settled (options : Options) (settled : List Drawing) (done : List Action)
    (summary : Summary) : Prop where
  fates : ∀ rows ∈ settled, ((Answer.rows rows).judgement? options.missingKing).isSome = true ∨
    rows.isRefused options.missingKing = true ∧ options.onMalformed = .skip
  reckons : Reckons options.missingKing (settled.map .rows) (sentBy done) summary
  evaluated : (notedBy done).filterMap Event.report? = sentBy done
  skipped : (notedBy done).filterMap Event.skipped? =
    places (Drawing.isRefused options.missingKing) settled
  unfinished : ∀ summary, .finished summary ∉ notedBy done

namespace Settled

variable {options : Options} {settled : List Drawing} {done more : List Action}
  {summary : Summary} {rows : Drawing}

/-- What is neither sent nor noted changes nothing. -/
theorem silent (h : Settled options settled done summary) (hsent : sentBy more = [])
    (hnoted : notedBy more = []) : Settled options settled (done ++ more) summary := by
  obtain ⟨hfates, hreckons, hevaluated, hskipped, hunfinished⟩ := h
  refine ⟨hfates, ?_, ?_, ?_, ?_⟩
  · rw [Run.sentBy_append, hsent, List.append_nil]
    exact hreckons
  · rw [Run.notedBy_append, hnoted, List.append_nil, Run.sentBy_append, hsent, List.append_nil]
    exact hevaluated
  · rw [Run.notedBy_append, hnoted, List.append_nil]
    exact hskipped
  · rw [Run.notedBy_append, hnoted, List.append_nil]
    exact hunfinished

/-- A drawing that is left out is noted with its place. -/
theorem refused (h : Settled options settled done summary) {reason : BoardError}
    (hfate : (Answer.rows rows).fate options.missingKing = .refused reason)
    (hskip : options.onMalformed = .skip) :
    Settled options (settled ++ [rows])
      (done ++ [.note (.skipped (settled.length + 1) reason)])
      { summary with skipped := summary.skipped + 1 } := by
  have hrefused : rows.isRefused options.missingKing = true := by
    rw [Drawing.isRefused, Answer.isRefused, hfate]
  obtain ⟨hfates, hreckons, hevaluated, hskipped, hunfinished⟩ := h
  refine ⟨?_, ?_, ?_, ?_, ?_⟩
  · exact List.forall_mem_append.2
      ⟨hfates, List.forall_mem_singleton.2 (.inr ⟨hrefused, hskip⟩)⟩
  · rw [List.map_append, Run.sentBy_append]
    exact (hreckons.refused hfate).silent
  · rw [Run.notedBy_append, List.filterMap_append, hevaluated, Run.sentBy_append]
    rfl
  · rw [Run.notedBy_append, List.filterMap_append, hskipped, places_concat, hrefused]
    rfl
  · intro summary hmem
    rw [Run.notedBy_append, List.mem_append] at hmem
    exact hmem.elim (hunfinished summary) (by simp [notedBy])

/-- A drawing that is judged is noted with the report that is sent. -/
theorem judged (h : Settled options settled done summary) {board : Board} {j : Judgement}
    (hfate : (Answer.rows rows).fate options.missingKing = .judged board j) :
    Settled options (settled ++ [rows])
      (done ++ Referee.judgingActions board j ⟨summary.games + 1, j.verdict, j.attacker⟩)
      { summary with games := summary.games + 1 } := by
  have hjudged : ((Answer.rows rows).judgement? options.missingKing).isSome = true := by
    rw [Answer.judgement?, hfate]
    rfl
  have hkept : rows.isRefused options.missingKing = false := by
    rw [Drawing.isRefused, Answer.isRefused, hfate]
  obtain ⟨events, hnoted, hreports, hskips, hfinished⟩ := Referee.notedBy_judgingActions board j
    ⟨summary.games + 1, j.verdict, j.attacker⟩
  obtain ⟨hfates, hreckons, hevaluated, hskipped, hunfinished⟩ := h
  refine ⟨?_, ?_, ?_, ?_, ?_⟩
  · exact List.forall_mem_append.2 ⟨hfates, List.forall_mem_singleton.2 (.inl hjudged)⟩
  · rw [List.map_append, Run.sentBy_append, Referee.sentBy_judgingActions]
    exact hreckons.judged hfate
  · rw [Run.notedBy_append, hnoted, List.filterMap_append, List.filterMap_append, hreports,
      hevaluated, Run.sentBy_append, Referee.sentBy_judgingActions]
    rfl
  · rw [Run.notedBy_append, hnoted, List.filterMap_append, List.filterMap_append, hskips, hskipped,
      places_concat, hkept]
    rfl
  · intro summary hmem
    rw [Run.notedBy_append, hnoted, List.mem_append, List.mem_append] at hmem
    rcases hmem with hbefore | hevents | hlast
    · exact hunfinished summary hbefore
    · exact hfinished summary hevents
    · simp at hlast

end Settled

namespace Referee

variable {σ κ : Type} {r : Referee σ κ}

/-- What is true of a referee after some steps: the drawings it read are settled, but for what
is left. -/
structure Logged (settled rest : List Drawing) (done : List Action) (r : Referee σ κ) : Prop where
  drawn : drawnBy done = settled ++ rest
  leaves : Leaves r.options r.phase rest
  accounts : Settled r.options settled done r.summary
  boardsRead : r.boardsRead = (settled ++ rest).length

namespace Logged

variable {settled rest : List Drawing} {done : List Action}

/-- A referee that reads has settled all drawings. -/
theorem of_reading (h : Logged settled rest done r) (hphase : r.phase = .reading) :
    rest = [] ∧ drawnBy done = settled ∧ r.boardsRead = settled.length := by
  have hleaves := h.leaves
  rw [hphase] at hleaves
  obtain rfl := hleaves.eq_nil_of_reading
  have hdrawn := h.drawn
  have hboards := h.boardsRead
  rw [List.append_nil] at hdrawn hboards
  exact ⟨rfl, hdrawn, hboards⟩

/-- A referee that judges has settled all drawings but the last. -/
theorem of_evaluating (h : Logged settled rest done r) {board : Board}
    (hphase : r.phase = .evaluating board) :
    ∃ rows, rest = [rows] ∧ Board.ofRows rows = .ok board ∧ board.isEmpty = false ∧
      drawnBy done = settled ++ [rows] ∧ r.boardsRead = settled.length + 1 := by
  have hleaves := h.leaves
  rw [hphase] at hleaves
  obtain ⟨rows, rfl, hrows, hempty⟩ := hleaves.eq_of_evaluating
  exact ⟨rows, rfl, hrows, hempty, h.drawn, by simpa using h.boardsRead⟩

/-- A board that waits is judged, whether the sink takes the report or not. -/
theorem of_judged (h : Logged settled rest done r) {board : Board} {j : Judgement}
    (hphase : r.phase = .evaluating board)
    (hjudged : board.evaluate r.options.missingKing = .ok j) : ∃ rows,
      drawnBy (done ++ judgingActions board j (r.reportOn j)) = settled ++ [rows] ∧
      r.boardsRead = settled.length + 1 ∧
      Settled r.options (settled ++ [rows]) (done ++ judgingActions board j (r.reportOn j))
        { r.summary with games := r.summary.games + 1 } := by
  obtain ⟨rows, -, hrows, hempty, hdrawn, hboards⟩ := h.of_evaluating hphase
  have hfate : (Answer.rows rows).fate r.options.missingKing = .judged board j := by
    simp [Answer.fate, hrows, hempty, hjudged]
  have hnothing : drawnBy (judgingActions board j (r.reportOn j)) = [] := by
    rw [drawnBy, readBy_judgingActions]
    rfl
  refine ⟨rows, ?_, hboards, h.accounts.judged hfate⟩
  rw [Run.drawnBy_append, hnothing, List.append_nil, hdrawn]

variable [Supply σ]

/-- A refused drawing is the last that was read, and all before it are settled. -/
theorem of_refuses (h : Logged settled rest done r) {next : Referee σ κ} {reason : BoardError}
    {more : List Action} (hrefused : r.Refuses next reason more) :
    ∃ rows, (Answer.rows rows).fate r.options.missingKing = .refused reason ∧
      drawnBy (done ++ more) = settled ++ [rows] ∧ next.boardsRead = settled.length + 1 ∧
      Settled r.options settled (done ++ more) next.summary := by
  cases hrefused with
  | @drawing source rows _ hphase _ hrows =>
    obtain ⟨-, hdrawn, hboards⟩ := h.of_reading hphase
    refine ⟨rows, by simp [Answer.fate, hrows], ?_, ?_, h.accounts.silent rfl rfl⟩
    · rw [Run.drawnBy_append, hdrawn]
      rfl
    · simp only [hboards]
  | kings hphase hjudged =>
    obtain ⟨rows, -, hrows, hempty, hdrawn, hboards⟩ := h.of_evaluating hphase
    refine ⟨rows, by simp [Answer.fate, hrows, hempty, hjudged], ?_, hboards, ?_⟩
    · rw [List.append_nil, hdrawn]
    · rw [List.append_nil]
      exact h.accounts

variable [ReportSink κ]

/-- **One more step settles one drawing at most.** -/
theorem step (h : Logged settled rest done r) :
    ∃ settled rest, Logged settled rest (done ++ r.step.actions) r.step.next := by
  have hstep := r.transition_step
  generalize r.step = s at hstep ⊢
  cases hstep with
  | failed hphase | exhausted hphase =>
    obtain ⟨rfl, hdrawn, hboards⟩ := h.of_reading hphase
    refine ⟨settled, [], ?_, .nothing (by simp), h.accounts.silent rfl rfl, h.boardsRead⟩
    rw [Run.drawnBy_append, hdrawn]
    rfl
  | @cleared source rows board hphase _ hrows hempty =>
    obtain ⟨-, hdrawn, hboards⟩ := h.of_reading hphase
    refine ⟨settled, [rows], ?_, .cleared hrows hempty, h.accounts.silent rfl rfl, ?_⟩
    · rw [Run.drawnBy_append, hdrawn]
      rfl
    · simp [hboards]
  | @taken source rows board hphase _ hrows hempty =>
    obtain ⟨-, hdrawn, hboards⟩ := h.of_reading hphase
    refine ⟨settled, [rows], ?_, .waiting hrows hempty, h.accounts.silent rfl rfl, ?_⟩
    · rw [Run.drawnBy_append, hdrawn]
      rfl
    · simp [hboards]
  | @aborted next reason more hrefused habort =>
    obtain ⟨rows, hfate, hdrawn, hboards, haccounts⟩ := h.of_refuses hrefused
    rw [← hrefused.options_eq] at hfate habort haccounts
    exact ⟨settled, [rows], hdrawn, .aborted hfate habort, haccounts, by simp [hboards]⟩
  | @skipped next reason more hrefused hskip =>
    obtain ⟨rows, hfate, hdrawn, hboards, haccounts⟩ := h.of_refuses hrefused
    rw [← hrefused.options_eq] at hfate hskip haccounts
    refine ⟨settled ++ [rows], [], ?_, .nothing (by simp), ?_, by simp [hboards]⟩
    · rw [← List.append_assoc, Run.drawnBy_append, hdrawn]
      rfl
    · rw [← List.append_assoc, hboards]
      exact haccounts.refused hfate hskip
  | sent hphase hjudged | unsent hphase hjudged =>
    obtain ⟨rows, hdrawn, hboards, haccounts⟩ := h.of_judged hphase hjudged
    exact ⟨settled ++ [rows], [], by rw [hdrawn, List.append_nil], .nothing (by simp), haccounts,
      by simp [hboards]⟩
  | idle hphase =>
    refine ⟨settled, rest, ?_, h.leaves, h.accounts.silent rfl rfl, h.boardsRead⟩
    rw [List.append_nil]
    exact h.drawn

/-- **The notes are right after any number of steps.** -/
theorem afterSteps (h : Logged settled rest done r) (n : Nat) :
    ∃ settled rest, Logged settled rest (done ++ r.actions n) (r.afterSteps n) := by
  induction n with
  | zero => exact ⟨settled, rest, (List.append_nil done).symm ▸ h⟩
  | succ n ih =>
    obtain ⟨settled, rest, h⟩ := ih
    rw [actions_succ, afterSteps_succ, ← List.append_assoc]
    exact h.step

omit [Supply σ] [ReportSink κ] in
/-- At the start there is nothing to settle. -/
theorem start (source : σ) (sink : κ) (options : Options) :
    Logged [] [] [] ({ source, sink, options } : Referee σ κ) := by
  refine ⟨rfl, .nothing (by simp), ⟨by simp, ⟨rfl, rfl⟩, rfl, rfl, ?_⟩, rfl⟩
  intro summary hmem
  exact absurd hmem List.not_mem_nil

end Logged

end Referee
end KingCheck
