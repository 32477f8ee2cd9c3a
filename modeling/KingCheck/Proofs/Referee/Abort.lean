import KingCheck.Proofs.Board.RoundTrip
import KingCheck.Proofs.Referee.Receipt

/-!
# Runs that stop at a bad board

Where a refused board ends the run, a run judges boards up to the first answer of the
source that is anything else, and that answer alone decides how it ends.  The invariant
of the induction ties the counts of the referee to the answers consumed: as many boards
were read as judged, so that the number in an error is the place of the refused board.
-/
namespace KingCheck

/-- Reports on judgements, numbered on from `games`. -/
def Report.numbered (games : Nat) (judged : List Judgement) : List Report :=
  judged.mapIdx fun i j => ⟨games + i + 1, j.verdict, j.attacker⟩

@[simp] theorem Report.numbered_cons (games : Nat) (j : Judgement) (judged : List Judgement) :
    numbered games (j :: judged) =
      ⟨games + 1, j.verdict, j.attacker⟩ :: numbered (games + 1) judged := by
  simp only [numbered, List.mapIdx_cons, Nat.add_zero]
  congr 2
  funext i j
  congr 1
  omega

namespace Fate

/-- How a run ends at an answer that is not judged, if a refused board is the `k`-th read. -/
def ending (k : Nat) (summary : Summary) : Fate → Except Failure Summary
  | .failed failure => .error failure
  | .refused reason => .error (.invalidBoard k reason)
  | _ => .ok summary

end Fate

namespace Answer

/-- The answers before the first that is not judged. -/
def judgedPart (policy : MissingKing) (answers : List Answer) : List Answer :=
  answers.takeWhile fun a => (a.judgement? policy).isSome

/-- The first answer that is not judged; after the last answer there are no more boards. -/
def firstOther (policy : MissingKing) (answers : List Answer) : Answer :=
  answers[(judgedPart policy answers).length]?.getD .exhausted

variable {policy : MissingKing} {a : Answer} {answers : List Answer} {board : Board} {j : Judgement}

theorem judgedPart_cons_of_judged (h : a.fate policy = .judged board j) :
    judgedPart policy (a :: answers) = a :: judgedPart policy answers := by
  simp [judgedPart, judgement?, h]

theorem firstOther_cons_of_judged (h : a.fate policy = .judged board j) :
    firstOther policy (a :: answers) = firstOther policy answers := by
  simp [firstOther, judgedPart_cons_of_judged h]

theorem judgedPart_cons_of_not_judged (h : ∀ board j, a.fate policy ≠ .judged board j) :
    judgedPart policy (a :: answers) = [] := by
  have hnone : a.judgement? policy = none := by
    rw [judgement?]
    split
    next hj => exact absurd hj (h _ _)
    next => rfl
  simp [judgedPart, hnone]

theorem firstOther_cons_of_not_judged (h : ∀ board j, a.fate policy ≠ .judged board j) :
    firstOther policy (a :: answers) = a := by
  simp [firstOther, judgedPart_cons_of_not_judged h]

/-- The answer that stops a run is one of the source, or the source has no more. -/
theorem firstOther_mem (policy : MissingKing) (answers : List Answer) :
    firstOther policy answers = .exhausted ∨ firstOther policy answers ∈ answers := by
  cases hget : answers[(judgedPart policy answers).length]? with
  | none => exact .inl (by rw [firstOther, hget]; rfl)
  | some a => exact .inr (by rw [firstOther, hget]; exact List.mem_of_getElem? hget)

/-- The answer that stops a run is not judged. -/
theorem fate_firstOther_ne_judged (policy : MissingKing) (answers : List Answer) :
    ∀ board j, (firstOther policy answers).fate policy ≠ .judged board j := by
  induction answers with
  | nil =>
    intro board j
    simp [firstOther, judgedPart, fate]
  | cons a answers ih =>
    cases hfate : a.fate policy with
    | judged board j =>
      rw [firstOther_cons_of_judged hfate]
      exact ih
    | refused | ended | failed =>
      have hnot : ∀ board j, a.fate policy ≠ .judged board j := by simp [hfate]
      rw [firstOther_cons_of_not_judged hnot]
      exact hnot

end Answer

/-- What a run that stops at bad boards comes to: `boardsRead` and `summary` are the counts
it begins with, and `answers` are what its source has left. -/
structure Run.StopsIn {κ : Type} (policy : MissingKing) (answers : List Answer)
    (boardsRead : Nat) (summary : Summary) (run : Run κ) : Prop where
  sent : ∃ judged : List Judgement,
    (Answer.judgedPart policy answers).map (Answer.judgement? policy) = judged.map some ∧
    run.sent = Report.numbered summary.games judged
  outcome : run.outcome = ((Answer.firstOther policy answers).fate policy).ending
    (boardsRead + (Answer.judgedPart policy answers).length + 1)
    { summary with games := summary.games + (Answer.judgedPart policy answers).length }
  finishes : run.finishes = if run.outcome.isOk then 1 else 0

namespace Referee

open ReportSink (Willing)

variable {κ : Type} {r : Referee (List Answer) κ} {a : Answer} {answers : List Answer}

/-- A board that is judged comes before what the rest of the run comes to. -/
theorem stopsIn_cons_of_judged {run : Run κ} {policy : MissingKing} {boardsRead : Nat}
    {summary : Summary} {board : Board} {j : Judgement} {report : Report}
    (hfate : a.fate policy = .judged board j)
    (hreport : report = ⟨summary.games + 1, j.verdict, j.attacker⟩)
    (h : run.StopsIn policy answers (boardsRead + 1) { summary with games := summary.games + 1 }) :
    (run.after (.read a :: judgingActions board j report)).StopsIn policy (a :: answers) boardsRead
      summary := by
  obtain ⟨⟨judged, hmap, hsent⟩, houtcome, hfinishes⟩ := h
  have hpart : Answer.judgedPart policy (a :: answers) = a :: Answer.judgedPart policy answers :=
    Answer.judgedPart_cons_of_judged hfate
  have hother : Answer.firstOther policy (a :: answers) = Answer.firstOther policy answers :=
    Answer.firstOther_cons_of_judged hfate
  refine ⟨⟨j :: judged, ?_, ?_⟩, ?_, ?_⟩
  · rw [hpart, List.map_cons, List.map_cons, hmap, Answer.judgement?, hfate]
  · rw [Run.sent_after, hsent, hreport, Run.sentBy_cons_read, sentBy_judgingActions]
    simp
  · rw [Run.outcome_after, houtcome, hpart, hother]
    congr 2 <;> simp only [List.length_cons] <;> omega
  · rw [Run.finishes_after, hfinishes, Run.outcome_after]
    simp

variable [ReportSink κ]

/-- An answer that is not judged ends the run, before anything is sent. -/
theorem run_of_not_judged (hsink : Willing r.sink) (hphase : r.phase = .reading)
    (habort : r.options.onMalformed = .abort) (hnext : (BoardSource.next r.source).1 = a)
    (hnot : ∀ board j, a.fate r.options.missingKing ≠ .judged board j) :
    r.run.sent = [] ∧
      r.run.outcome = (a.fate r.options.missingKing).ending (r.boardsRead + 1) r.summary ∧
      r.run.finishes = if r.run.outcome.isOk then 1 else 0 := by
  rw [run_of_reading hphase (Prod.ext hnext rfl)]
  cases hfate : a.fate r.options.missingKing with
  | judged board j => exact absurd hfate (hnot board j)
  | refused reason =>
    simp only [habort]
    exact ⟨rfl, rfl, rfl⟩
  | ended =>
    simp only [close_of_willing hsink]
    exact ⟨rfl, rfl, rfl⟩
  | failed failure => exact ⟨rfl, rfl, rfl⟩

/-- The answers of a source end with the first that is not judged. -/
theorem stopsIn_of_not_judged (hsink : Willing r.sink) (hphase : r.phase = .reading)
    (habort : r.options.onMalformed = .abort) (hnext : (BoardSource.next r.source).1 = a)
    (hpart : Answer.judgedPart r.options.missingKing answers = [])
    (hother : Answer.firstOther r.options.missingKing answers = a)
    (hnot : ∀ board j, a.fate r.options.missingKing ≠ .judged board j) :
    r.run.StopsIn r.options.missingKing answers r.boardsRead r.summary := by
  obtain ⟨hsent, houtcome, hfinishes⟩ := run_of_not_judged hsink hphase habort hnext hnot
  refine ⟨⟨[], ?_, hsent⟩, ?_, hfinishes⟩
  · rw [hpart, List.map_nil, List.map_nil]
  · rw [hother, hpart]
    exact houtcome

/-- **What a run that stops at bad boards sends, and how it ends**, from any reading
referee on. -/
theorem run_stopsIn (hsink : Willing r.sink) (hphase : r.phase = .reading)
    (habort : r.options.onMalformed = .abort) :
    r.run.StopsIn r.options.missingKing r.source r.boardsRead r.summary := by
  generalize hanswers : r.source = answers
  induction answers generalizing r with
  | nil =>
    refine stopsIn_of_not_judged (a := .exhausted) hsink hphase habort ?_ rfl rfl ?_
    · rw [hanswers]
      rfl
    · simp [Answer.fate]
  | cons a answers ih =>
    have hnext : BoardSource.next r.source = (a, answers) := by rw [hanswers]; rfl
    by_cases hjudged : ∃ board j, a.fate r.options.missingKing = .judged board j
    · obtain ⟨board, j, hfate⟩ := hjudged
      rw [run_of_judged hsink hphase hnext hfate]
      refine stopsIn_cons_of_judged hfate rfl ?_
      exact ih (r := r.scoring answers (ReportSink.emit r.sink (r.reportOn j)).2)
        (hsink.emit _) hphase habort rfl
    · have hnot : ∀ board j, a.fate r.options.missingKing ≠ .judged board j := by
        intro board j hfate
        exact hjudged ⟨board, j, hfate⟩
      exact stopsIn_of_not_judged hsink hphase habort (by rw [hnext])
        (Answer.judgedPart_cons_of_not_judged hnot) (Answer.firstOther_cons_of_not_judged hnot) hnot

/-- **A run that stops at bad boards is decided by the first answer that is not judged.**
Let it be the `k`-th: the judgements on the answers before it are reported in order, with
the numbers from 1, and it alone says how the run ends.  The sink takes these reports, one after
another, and is told the end if the run succeeds, and only then. -/
theorem run_abort_iff (answers : List Answer) (policy : MissingKing) (sink : κ)
    (hsink : Willing sink) :
    let run := ({ source := answers, sink, options := ⟨.abort, policy⟩ } :
      Referee (List Answer) κ).run
    let before := Answer.judgedPart policy answers
    let k := before.length + 1
    let other := Answer.firstOther policy answers
    (∃ judged : List Judgement, before.map (Answer.judgement? policy) = judged.map some ∧
      run.sent = Report.numbered 0 judged) ∧
    (∀ n reason, (n = k ∧ other.fate policy = .refused reason) ↔
      run.outcome = .error (.invalidBoard n reason) ∧ ∀ failure, other ≠ .failed failure) ∧
    (∀ failure, other = .failed failure ↔
      run.outcome = .error failure ∧ ∀ reason, other.fate policy ≠ .refused reason) ∧
    (∀ summary, (other.fate policy = .ended ∧ summary = ⟨k - 1, 0⟩) ↔ run.outcome = .ok summary) ∧
    (run.finishes = if run.outcome.isOk then 1 else 0) ∧
    run.Delivers sink := by
  intro run before k other
  have hdelivers : run.Delivers sink := (runsTo_run _).delivers hsink
  have hstops : run.StopsIn policy answers 0 {} :=
    run_stopsIn (r := ⟨answers, sink, ⟨.abort, policy⟩, .reading, 0, {}⟩) hsink rfl rfl
  have houtcome : run.outcome = (other.fate policy).ending k ⟨k - 1, 0⟩ := by
    rw [hstops.outcome]
    simp [k, before, other]
  have hfailed : ∀ failure, other = .failed failure ↔ other.fate policy = .failed failure :=
    fun failure => Answer.fate_eq_failed_iff.symm
  have hnot := Answer.fate_firstOther_ne_judged policy answers
  refine ⟨hstops.sent, ?_, ?_, ?_, hstops.finishes, hdelivers⟩ <;>
    simp only [houtcome, ne_eq, hfailed] <;>
    cases hfate : other.fate policy with
    | judged board j => exact absurd hfate (hnot board j)
    | refused reason => simp [Fate.ending, eq_comm]
    | ended => simp [Fate.ending, eq_comm]
    | failed failure => simp [Fate.ending, eq_comm]

/-- A board without attacks, and after it a drawing of one row: the run reports on the
first and stops at the second, and the sink keeps that report. -/
theorem run_abort_iff_short_second :
    let sink : Output.ReportList := {}
    let run := ({ source := [.rows Drawing.twoKings, .rows ["k"], .exhausted], sink,
                  options := ⟨.abort, .ignore⟩ } : Referee (List Answer) Output.ReportList).run
    Willing sink ∧ run.sent = [⟨1, .noneInCheck, none⟩] ∧
    run.outcome = .error (.invalidBoard 2 (.malformed (.rowCount 1))) ∧ run.finishes = 0 ∧
    run.sink = { sink with kept := #[⟨1, .noneInCheck, none⟩] } := by
  intro sink run
  have hsink : Willing sink := Output.ReportList.willing rfl rfl
  obtain ⟨⟨judged, hjudged, hsent⟩, hrefused, -, -, hfinishes, taken, htaken, hleft⟩ :=
    run_abort_iff [.rows Drawing.twoKings, .rows ["k"], .exhausted] .ignore sink hsink
  have houtcome := ((hrefused 2 (.malformed (.rowCount 1))).1 (by decide +kernel)).1
  have hone : judged.map some = [some ⟨none, none⟩] := by
    rw [← hjudged]
    decide +kernel
  obtain rfl : judged = [⟨none, none⟩] := by
    cases judged with
    | nil => simp at hone
    | cons j judged => simpa using hone
  rw [houtcome] at hfinishes hleft
  rw [hsent] at htaken
  refine ⟨hsink, hsent, houtcome, hfinishes, ?_⟩
  exact hleft.trans (congrArg Prod.snd htaken).symm

end Referee
end KingCheck
