import KingCheck.Proofs.Referee.Abort
import KingCheck.Proofs.Referee.Exchange
import KingCheck.Proofs.Referee.Sentinel
import KingCheck.Proofs.Referee.Termination

/-!
# Runs that leave bad boards out, by what they read

Where bad boards are left out and the sink never fails, what a referee did is a function of
the answers it read: it reported on those that are judged, counted those that are refused,
and goes on as long as none of them ends the stream.  `Tallied` says so after any number of
steps, also over a source without an end, and `RunsTo.exists_covers` of a run that ends.
-/
namespace KingCheck

theorem Report.numbered_concat (games : Nat) (judged : List Judgement) (j : Judgement) :
    numbered games (judged ++ [j]) =
      numbered games judged ++ [⟨games + judged.length + 1, j.verdict, j.attacker⟩] := by
  rw [numbered, List.mapIdx_concat]
  rfl

namespace Answer

/-- The judgements on the answers that are judged, in order. -/
def judgements (policy : MissingKing) (answers : List Answer) : List Judgement :=
  answers.filterMap (judgement? policy)

/-- How many answers are judged and how many are refused. -/
def counts (policy : MissingKing) (answers : List Answer) : Summary :=
  ⟨(judgements policy answers).length, answers.countP (isRefused policy)⟩

theorem judgements_append (policy : MissingKing) (answers more : List Answer) :
    judgements policy (answers ++ more) = judgements policy answers ++ judgements policy more :=
  List.filterMap_append

variable {policy : MissingKing} {a : Answer}

/-- An answer that ends the stream is not judged, and adds nothing. -/
theorem judgements_concat_of_isFinal (h : a.isFinal policy = true) (answers : List Answer) :
    judgements policy (answers ++ [a]) = judgements policy answers ∧
      counts policy (answers ++ [a]) = counts policy answers := by
  have hnone : a.judgement? policy = none ∧ a.isRefused policy = false := by
    rw [isFinal] at h
    rw [judgement?, isRefused]
    cases hfate : a.fate policy <;> simp_all
  have hempty : judgements policy [a] = [] := by simp [judgements, hnone.1]
  simp [counts, judgements_append, hempty, hnone.2]

end Answer

/-- A supply answers `before`, and then `final`, which is the first answer that ends the
stream. -/
structure Supply.Stream {σ : Type} [Supply σ] (policy : MissingKing) (source : σ)
    (before : List Answer) (final : Answer) : Prop where
  answers : BoardSource.answers (before.length + 1) source = before ++ [final]
  going : ∀ a ∈ before, a.isFinal policy = false
  ended : final.isFinal policy = true

namespace Supply.Stream

variable {σ : Type} [Supply σ] {policy : MissingKing} {source : σ} {before before' : List Answer}
  {final final' : Answer}

/-- A supply has one stream only. -/
theorem unique (h : Stream policy source before final)
    (h' : Stream policy source before' final') : before = before' ∧ final = final' := by
  induction before generalizing source before' with
  | nil =>
    have hfirst : (Supply.next source).1 = final := (List.cons.inj h.answers).1
    cases before' with
    | nil => exact ⟨rfl, hfirst.symm.trans (List.cons.inj h'.answers).1⟩
    | cons a before' =>
      have hsame : (Supply.next source).1 = a := (List.cons.inj h'.answers).1
      have hgoing := h'.going a List.mem_cons_self
      rw [← hsame, hfirst, h.ended] at hgoing
      exact absurd hgoing (by decide)
  | cons a before ih =>
    obtain ⟨hfirst, hrest⟩ := List.cons.inj h.answers
    cases before' with
    | nil =>
      have hsame : (Supply.next source).1 = final' := (List.cons.inj h'.answers).1
      have hgoing := h.going a List.mem_cons_self
      rw [← hfirst, hsame, h'.ended] at hgoing
      exact absurd hgoing (by decide)
    | cons a' before' =>
      obtain ⟨hfirst', hrest'⟩ := List.cons.inj h'.answers
      obtain ⟨rfl, rfl⟩ := ih ⟨hrest, fun b hb => h.going b (List.mem_cons_of_mem a hb), h.ended⟩
        ⟨hrest', fun b hb => h'.going b (List.mem_cons_of_mem a' hb), h'.ended⟩
      exact ⟨congrArg (List.cons · before) (hfirst.symm.trans hfirst'), rfl⟩

end Supply.Stream

/-- A run reads a stream: it reports on the answers that are judged and counts those that are
refused, and the last answer says how it ends. -/
structure Run.Covers {κ : Type} (policy : MissingKing) (before : List Answer) (final : Answer)
    (run : Run κ) : Prop where
  read : Run.readBy run.actions = before ++ [final]
  sent : run.sent = Report.numbered 0 (Answer.judgements policy before)
  outcome : run.outcome = (final.fate policy).ending 0 (Answer.counts policy before)
  finishes : run.finishes = if run.outcome.isOk then 1 else 0

/-- Some reports and counts are those of some answers. -/
structure Reckons (policy : MissingKing) (answers : List Answer) (sent : List Report)
    (summary : Summary) : Prop where
  sent : sent = Report.numbered 0 (Answer.judgements policy answers)
  summary : summary = Answer.counts policy answers

namespace Reckons

variable {policy : MissingKing} {a : Answer} {answers : List Answer} {sent : List Report}
  {summary : Summary}

/-- An answer that is judged adds a report, with the next number. -/
theorem judged (h : Reckons policy answers sent summary) {board : Board} {j : Judgement}
    (hfate : a.fate policy = .judged board j) :
    Reckons policy (answers ++ [a]) (sent ++ [⟨summary.games + 1, j.verdict, j.attacker⟩])
      { summary with games := summary.games + 1 } := by
  obtain ⟨rfl, rfl⟩ := h
  have hone : Answer.judgements policy [a] = [j] := by
    simp [Answer.judgements, Answer.judgement?, hfate]
  constructor
  · rw [Answer.judgements_append, hone, Report.numbered_concat, Nat.zero_add]
    rfl
  · simp [Answer.counts, Answer.judgements_append, hone, Answer.isRefused, hfate]

/-- An answer that is refused is counted. -/
theorem refused (h : Reckons policy answers sent summary) {reason : BoardError}
    (hfate : a.fate policy = .refused reason) :
    Reckons policy (answers ++ [a]) sent { summary with skipped := summary.skipped + 1 } := by
  obtain ⟨rfl, rfl⟩ := h
  have hnone : Answer.judgements policy [a] = [] := by
    simp [Answer.judgements, Answer.judgement?, hfate]
  constructor
  · rw [Answer.judgements_append, hnone, List.append_nil]
  · simp [Answer.counts, Answer.judgements_append, hnone, Answer.isRefused, hfate]

/-- An answer that ends the stream adds nothing. -/
theorem final (h : Reckons policy answers sent summary) (hfinal : a.isFinal policy = true) :
    Reckons policy (answers ++ [a]) sent summary := by
  obtain ⟨hsame, hcounts⟩ := Answer.judgements_concat_of_isFinal hfinal answers
  exact ⟨hsame ▸ h.sent, hcounts ▸ h.summary⟩

/-- Sending nothing keeps the reckoning. -/
theorem silent (h : Reckons policy answers sent summary) :
    Reckons policy answers (sent ++ []) summary := by
  rwa [List.append_nil]

end Reckons

/-- Of the answers that were read all are settled, but for the one whose board waits. -/
inductive Settles : Phase → List Answer → List Answer → Prop where
  | all {phase : Phase} {answers : List Answer} (hphase : ∀ board, phase ≠ .evaluating board) :
      Settles phase answers answers
  | waiting {board : Board} {rows : Drawing} {answers : List Answer}
      (hrows : Board.ofRows rows = .ok board) (hempty : board.isEmpty = false) :
      Settles (.evaluating board) (answers ++ [.rows rows]) answers

/-- Where no board waits, all answers are settled. -/
theorem Settles.eq_of_ne {phase : Phase} {read answers : List Answer}
    (h : Settles phase read answers) (hphase : ∀ board, phase ≠ .evaluating board) :
    answers = read := by
  cases h with
  | all => rfl
  | @waiting board => exact absurd rfl (hphase board)

/-- What a step comes to and the phase it leads to, where bad boards are left out and the sink
never fails: they depend on the phase and on the next answer alone. -/
def Phase.advance : Phase → Answer → Except Failure Bool × Phase
  | .reading, .rows rows =>
    match Board.ofRows rows with
    | .ok board => if board.isEmpty then (.ok false, .terminated) else (.ok true, .evaluating board)
    | .error _ => (.ok true, .reading)
  | .reading, .exhausted => (.ok false, .terminated)
  | .reading, .failed failure => (.error failure, .terminated)
  | .evaluating _, _ => (.ok true, .reading)
  | .terminated, _ => (.ok false, .terminated)

/-- An answer ends the stream exactly if it leads a reading referee to the end. -/
theorem Answer.isFinal_iff_advance {policy : MissingKing} {a : Answer} :
    a.isFinal policy = true ↔ (Phase.reading.advance a).2 = .terminated := by
  cases a with
  | exhausted | failed failure => simp [isFinal, fate, Phase.advance]
  | rows rows =>
    rw [isFinal_rows_iff, Phase.advance]
    cases hrows : Board.ofRows rows with
    | error reason => simp
    | ok board => cases hempty : board.isEmpty <;> simp [hempty]

/-- An answer at which a reading referee stops says how a run ends. -/
theorem Answer.ending_of_advance (policy : MissingKing) {a : Answer}
    {outcome : Except Failure Unit}
    (h : (Phase.reading.advance a).1 = outcome.map fun _ => false) :
    a.isFinal policy = true ∧
      ∀ summary, (a.fate policy).ending 0 summary = outcome.map fun _ => summary := by
  cases a with
  | exhausted =>
    cases outcome with
    | error failure => simp [Phase.advance, Except.map] at h
    | ok => exact ⟨rfl, fun _ => rfl⟩
  | failed failure =>
    cases outcome with
    | error failure' =>
      obtain rfl := Except.error.inj h
      exact ⟨rfl, fun _ => rfl⟩
    | ok => simp [Phase.advance, Except.map] at h
  | rows rows =>
    cases hrows : Board.ofRows rows with
    | error reason => cases outcome <;> simp [Phase.advance, hrows, Except.map] at h
    | ok board =>
      cases hempty : board.isEmpty with
      | false => cases outcome <;> simp [Phase.advance, hrows, hempty, Except.map] at h
      | true =>
        cases outcome with
        | error failure => simp [Phase.advance, hrows, hempty, Except.map] at h
        | ok =>
          refine ⟨isFinal_rows_iff.2 ⟨board, hrows, hempty⟩, fun _ => ?_⟩
          simp [fate, hrows, hempty, Fate.ending, Except.map]

/-- A board that waits was read last. -/
theorem Settles.eq_of_evaluating {board : Board} {read answers : List Answer}
    (h : Settles (.evaluating board) read answers) : ∃ rows : Drawing,
      read = answers ++ [.rows rows] ∧ Board.ofRows rows = .ok board ∧ board.isEmpty = false := by
  cases h with
  | all hphase => exact absurd rfl (hphase board)
  | waiting hrows hempty => exact ⟨_, rfl, hrows, hempty⟩

namespace Referee

open ReportSink (Willing)
open Run (readBy sentBy)
open Supply (Stream)

variable {σ κ : Type} [Supply σ] [ReportSink κ] {r : Referee σ κ}

section Steps

theorem afterSteps_succ_eq_next (r : Referee σ κ) (n : Nat) :
    r.afterSteps (n + 1) = r.step.next.afterSteps n := rfl

theorem actions_succ_eq_next (r : Referee σ κ) (n : Nat) :
    r.actions (n + 1) = r.step.actions ++ r.step.next.actions n := by
  induction n with
  | zero => simp [actions, steps, afterSteps]
  | succ n ih =>
    rw [actions_succ, ih, afterSteps_succ_eq_next, List.append_assoc, ← actions_succ]

/-- Steps that are repeated to the end are the first steps up to one after which there is no
more to do. -/
theorem Halts.exists_steps {done : List Action} {outcome : Except Failure Unit}
    {last : Referee σ κ} (h : r.Halts done outcome last) :
    ∃ n, done = r.actions (n + 1) ∧ last = r.afterSteps (n + 1) ∧
      (∀ i < n, (r.afterSteps i).step.outcome = .ok true) ∧
      (r.afterSteps n).step.outcome = outcome.map fun _ => false := by
  induction h with
  | @ended r last done hstep | @failed r last done failure hstep =>
    refine ⟨0, ?_, ?_, fun i hi => absurd hi i.not_lt_zero, ?_⟩
    · simp [actions, steps, afterSteps, hstep]
    · simp [afterSteps, hstep]
    · simp [afterSteps, hstep, Except.map]
  | @more r next last first done outcome hstep _ ih =>
    obtain ⟨n, hdone, hlast, hbefore, houtcome⟩ := ih
    have hnext : r.step.next = next := by rw [hstep]
    refine ⟨n + 1, ?_, ?_, ?_, ?_⟩
    · rw [actions_succ_eq_next, hnext, ← hdone, hstep]
    · rw [afterSteps_succ_eq_next, hnext, hlast]
    · intro i hi
      cases i with
      | zero => exact congrArg Step.outcome hstep
      | succ i =>
        rw [afterSteps_succ_eq_next, hnext]
        exact hbefore i (Nat.lt_of_succ_lt_succ hi)
    · rw [afterSteps_succ_eq_next, hnext, houtcome]

/-- A referee is not done while there is more to do. -/
theorem isTerminated_afterSteps {n : Nat} (hstart : r.isTerminated = false)
    (hmore : ∀ i < n, (r.afterSteps i).step.outcome = .ok true) :
    (r.afterSteps n).isTerminated = false := by
  cases n with
  | zero => exact hstart
  | succ n =>
    rw [afterSteps_succ, Bool.eq_false_iff, ne_eq, isTerminated_next_iff, not_not]
    exact hmore n n.lt_succ_self

/-- Where some step leaves the referee done, steps are repeated to an end. -/
theorem exists_runsTo_of_isTerminated {n : Nat} (h : (r.afterSteps n).isTerminated = true) :
    ∃ run, r.RunsTo run := by
  induction n generalizing r with
  | zero => exact ⟨_, .closed (.ended (step_of_isTerminated h))⟩
  | succ n ih =>
    rcases hstep : r.step with ⟨failure | _ | _, done, next⟩
    · exact ⟨_, .failed (.failed hstep)⟩
    · exact ⟨_, .closed (.ended hstep)⟩
    · rw [afterSteps_succ_eq_next, hstep] at h
      obtain ⟨run, hrun⟩ := ih h
      exact ⟨_, hrun.more hstep⟩

/-- **A run ends exactly if some step leaves the referee done.** -/
theorem exists_runsTo_iff : (∃ run, r.RunsTo run) ↔ ∃ n, (r.afterSteps n).isTerminated = true := by
  constructor
  · rintro ⟨run, hrun⟩
    have hhalts : ∃ done outcome last, r.Halts done outcome last := by
      cases hrun with
      | closed h | failed h => exact ⟨_, _, _, h⟩
    obtain ⟨done, outcome, last, h⟩ := hhalts
    obtain ⟨n, -, -, -, houtcome⟩ := h.exists_steps
    refine ⟨n + 1, ?_⟩
    rw [afterSteps_succ, isTerminated_next_iff, houtcome]
    cases outcome <;> simp [Except.map]
  · rintro ⟨n, hn⟩
    exact exists_runsTo_of_isTerminated hn

end Steps

/-- A step keeps the policies. -/
theorem options_step (r : Referee σ κ) : r.step.next.options = r.options := by
  have hstep := r.transition_step
  generalize r.step = s at hstep ⊢
  cases hstep with
  | failed | exhausted | cleared | taken | sent | unsent | idle => rfl
  | aborted hrefused | skipped hrefused => exact hrefused.options_eq

theorem options_afterSteps (r : Referee σ κ) (n : Nat) : (r.afterSteps n).options = r.options := by
  induction n with
  | zero => rfl
  | succ n ih => rw [afterSteps_succ, options_step, ih]

/-- A referee that leaves bad boards out, into a sink that never fails. -/
structure Tolerant (r : Referee σ κ) : Prop where
  skip : r.options.onMalformed = .skip
  willing : Willing r.sink

namespace Tolerant

/-- A tolerant referee stays so. -/
theorem step (h : r.Tolerant) : r.step.next.Tolerant := by
  refine ⟨(congrArg Options.onMalformed r.options_step).trans h.skip, ?_⟩
  have hstep := r.transition_step
  generalize r.step = s at hstep ⊢
  cases hstep with
  | failed | exhausted | cleared | taken | idle => exact h.willing
  | aborted hrefused | skipped hrefused => exact hrefused.sink_eq ▸ h.willing
  | @sent board j sink _ _ hemit | @unsent board j failure sink _ _ hemit =>
    have hsink := h.willing.emit (r.reportOn j)
    rwa [hemit] at hsink

/-- **What a step of a tolerant referee comes to depends on the phase and the next answer.** -/
theorem step_eq_advance (h : r.Tolerant) :
    (r.step.outcome, r.step.next.phase) = r.phase.advance (Supply.next r.source).1 := by
  have hstep := r.transition_step
  generalize r.step = s at hstep ⊢
  cases hstep with
  | failed hphase hnext | exhausted hphase hnext => simp [hphase, hnext, Phase.advance]
  | cleared hphase hnext hrows hempty | taken hphase hnext hrows hempty =>
    simp [hphase, hnext, Phase.advance, hrows, hempty]
  | aborted _ habort => simp [h.skip] at habort
  | skipped hrefused =>
    cases hrefused with
    | drawing hphase hnext hrows => simp [hphase, hnext, Phase.advance, hrows]
    | kings hphase => simp [hphase, Phase.advance]
  | sent hphase => simp [hphase, Phase.advance]
  | @unsent board j failure sink _ _ hemit =>
    have hok := h.willing.emit_ok (r.reportOn j)
    simp [hemit] at hok
  | idle hphase => simp [hphase, Phase.advance]

/-- A tolerant referee that stops was reading, since while a board waits it goes on. -/
theorem reading_of_stop (h : r.Tolerant) (hgoing : r.isTerminated = false)
    {outcome : Except Failure Unit} (hstop : r.step.outcome = outcome.map fun _ => false) :
    r.phase = .reading ∧
      (Phase.reading.advance (Supply.next r.source).1).1 = outcome.map fun _ => false := by
  have hadvance := congrArg Prod.fst h.step_eq_advance
  rw [hstop] at hadvance
  cases hphase : r.phase with
  | reading =>
    rw [hphase] at hadvance
    exact ⟨rfl, hadvance.symm⟩
  | evaluating board =>
    rw [hphase] at hadvance
    cases outcome <;> simp [Phase.advance, Except.map] at hadvance
  | terminated => simp [isTerminated, hphase] at hgoing

/-- A referee stays tolerant however many steps it is asked for. -/
theorem afterSteps (h : r.Tolerant) (n : Nat) : (r.afterSteps n).Tolerant := by
  induction n with
  | zero => exact h
  | succ n ih =>
    rw [afterSteps_succ]
    exact ih.step

end Tolerant

/-- What is true of a tolerant referee after some steps: `source` is the source it began with,
and `done` is what it did. -/
structure Tallied (source : σ) (done : List Action) (r : Referee σ κ) : Prop where
  answers : ∀ more, BoardSource.answers ((readBy done).length + more) source =
    readBy done ++ BoardSource.answers more r.source
  settled : ∃ answers, Settles r.phase (readBy done) answers ∧
    Reckons r.options.missingKing answers (sentBy done) r.summary
  going : r.isTerminated = false → ∀ a ∈ readBy done, a.isFinal r.options.missingKing = false

namespace Tallied

variable {source : σ} {done : List Action}

/-- The answers are read in order. -/
theorem answers_step (h : Tallied source done r) (more : Nat) :
    BoardSource.answers ((readBy (done ++ r.step.actions)).length + more) source =
      readBy (done ++ r.step.actions) ++ BoardSource.answers more r.step.next.source := by
  rw [Run.readBy_append]
  cases hphase : r.phase with
  | reading =>
    obtain ⟨hread, hsource, -⟩ := step_of_reading hphase
    rw [hread, hsource, List.length_append, List.length_singleton, Nat.add_assoc, Nat.add_comm 1,
      h.answers, List.append_assoc]
    rfl
  | evaluating board =>
    obtain ⟨hread, hsource, -⟩ := step_of_evaluating hphase
    rw [hread, hsource, List.append_nil, h.answers]
  | terminated =>
    have hstep := step_of_isTerminated (r := r) (by simp [isTerminated, hphase])
    rw [hstep]
    exact (List.append_nil (readBy done)).symm ▸ h.answers more

/-- A referee that is not done read no answer that ends the stream. -/
theorem going_step (h : Tallied source done r) (ht : r.Tolerant)
    (hmore : r.step.next.isTerminated = false) :
    ∀ a ∈ readBy (done ++ r.step.actions), a.isFinal r.options.missingKing = false := by
  intro a ha
  rw [Run.readBy_append, List.mem_append] at ha
  cases hphase : r.phase with
  | reading =>
    rw [(step_of_reading hphase).1, List.mem_singleton] at ha
    rcases ha with hbefore | rfl
    · exact h.going (by simp [isTerminated, hphase]) a hbefore
    · have hadvance := congrArg Prod.snd ht.step_eq_advance
      rw [hphase] at hadvance
      rw [Bool.eq_false_iff, ne_eq, Answer.isFinal_iff_advance, ← hadvance]
      simpa [isTerminated] using hmore
  | evaluating board =>
    rw [(step_of_evaluating hphase).1] at ha
    exact h.going (by simp [isTerminated, hphase]) a (ha.resolve_right List.not_mem_nil)
  | terminated =>
    rw [step_of_isTerminated (by simp [isTerminated, hphase])] at hmore
    simp [isTerminated, hphase] at hmore

/-- What is settled is sent and counted. -/
theorem settled_step (h : Tallied source done r) (ht : r.Tolerant) :
    ∃ answers, Settles r.step.next.phase (readBy (done ++ r.step.actions)) answers ∧
      Reckons r.options.missingKing answers (sentBy (done ++ r.step.actions))
        r.step.next.summary := by
  obtain ⟨answers, hsettles, hreckons⟩ := h.settled
  have hstep := r.transition_step
  rw [Run.readBy_append, Run.sentBy_append]
  generalize r.step = s at hstep ⊢
  cases hstep with
  | failed hphase | exhausted hphase =>
    obtain rfl := hsettles.eq_of_ne (by simp [hphase])
    exact ⟨_, .all (by simp), (hreckons.final rfl).silent⟩
  | cleared hphase _ hrows hempty =>
    obtain rfl := hsettles.eq_of_ne (by simp [hphase])
    have hfinal : (Answer.rows _).isFinal r.options.missingKing = true :=
      Answer.isFinal_rows_iff.2 ⟨_, hrows, hempty⟩
    exact ⟨_, .all (by simp), (hreckons.final hfinal).silent⟩
  | taken hphase _ hrows hempty =>
    obtain rfl := hsettles.eq_of_ne (by simp [hphase])
    exact ⟨_, .waiting hrows hempty, hreckons.silent⟩
  | aborted _ habort => simp [ht.skip] at habort
  | @skipped next reason done' hrefused =>
    rw [hrefused.sentBy_append_note]
    cases hrefused with
    | @drawing source rows _ hphase _ hrows =>
      obtain rfl := hsettles.eq_of_ne (by simp [hphase])
      have hfate : (Answer.rows rows).fate r.options.missingKing = .refused reason := by
        simp [Answer.fate, hrows]
      exact ⟨_, .all (by simp), (hreckons.refused hfate).silent⟩
    | @kings board _ hphase hjudged =>
      obtain ⟨rows, hread, hrows, hempty⟩ := (hphase ▸ hsettles).eq_of_evaluating
      have hfate : (Answer.rows rows).fate r.options.missingKing = .refused reason := by
        simp [Answer.fate, hrows, hempty, hjudged]
      have hmore := (hreckons.refused hfate).silent
      rw [← hread] at hmore
      refine ⟨_, .all (by simp), ?_⟩
      exact (List.append_nil (readBy done)).symm ▸ hmore
  | @sent board j sink hphase hjudged hemit =>
    obtain ⟨rows, hread, hrows, hempty⟩ := (hphase ▸ hsettles).eq_of_evaluating
    have hfate : (Answer.rows rows).fate r.options.missingKing = .judged board j := by
      simp [Answer.fate, hrows, hempty, hjudged]
    refine ⟨answers ++ [.rows rows], ?_, ?_⟩
    · rw [readBy_judgingActions, List.append_nil, hread]
      exact .all (by simp)
    · rw [sentBy_judgingActions]
      exact hreckons.judged hfate
  | @unsent board j failure sink _ _ hemit =>
    have hok := ht.willing.emit_ok (r.reportOn j)
    simp [hemit] at hok
  | idle hphase =>
    exact ⟨answers, (List.append_nil (readBy done)).symm ▸ hsettles, hreckons.silent⟩

/-- **One more step keeps the tally.** -/
theorem step (h : Tallied source done r) (ht : r.Tolerant) :
    Tallied source (done ++ r.step.actions) r.step.next := by
  refine ⟨h.answers_step, ?_, ?_⟩
  · rw [options_step]
    exact h.settled_step ht
  · rw [options_step]
    exact h.going_step ht

end Tallied

/-- **The tally is right after any number of steps.** -/
theorem Tolerant.tallied (ht : r.Tolerant) (hphase : r.phase = .reading) (hsummary : r.summary = {})
    (n : Nat) : Tallied r.source (r.actions n) (r.afterSteps n) := by
  induction n with
  | zero =>
    refine ⟨?_, ⟨[], .all ?_, rfl, hsummary⟩, ?_⟩
    · intro more
      exact congrArg (BoardSource.answers · r.source) (Nat.zero_add more)
    · intro board h
      simp [Referee.afterSteps, hphase] at h
    · intro _ a ha
      exact absurd ha List.not_mem_nil
  | succ n ih =>
    rw [actions_succ, afterSteps_succ]
    exact ih.step (ht.afterSteps n)

/-- What is done in steps that are repeated to the end, where bad boards are left out. -/
theorem Halts.exists_read {done : List Action} {outcome : Except Failure Unit}
    {last : Referee σ κ} (h : r.Halts done outcome last) (ht : r.Tolerant)
    (hphase : r.phase = .reading) (hsummary : r.summary = {}) :
    ∃ before final, Stream r.options.missingKing r.source before final ∧
      readBy done = before ++ [final] ∧
      sentBy done = Report.numbered 0 (Answer.judgements r.options.missingKing before) ∧
      last.summary = Answer.counts r.options.missingKing before ∧ Willing last.sink ∧
      ∀ summary, (final.fate r.options.missingKing).ending 0 summary =
        outcome.map fun _ => summary := by
  obtain ⟨n, rfl, rfl, hbefore, houtcome⟩ := h.exists_steps
  have htn := ht.afterSteps n
  have hgoing := isTerminated_afterSteps (by simp [isTerminated, hphase]) hbefore
  obtain ⟨hlast, hadvance⟩ := htn.reading_of_stop hgoing houtcome
  obtain ⟨hfinal, hending⟩ := Answer.ending_of_advance r.options.missingKing hadvance
  have htally := ht.tallied hphase hsummary n
  have htally' := ht.tallied hphase hsummary (n + 1)
  have hread : readBy (r.actions (n + 1)) =
      readBy (r.actions n) ++ [(Supply.next (r.afterSteps n).source).1] := by
    rw [actions_succ, Run.readBy_append, (step_of_reading hlast).1]
  have hdone : (r.afterSteps (n + 1)).phase = .terminated := by
    rw [afterSteps_succ]
    have := congrArg Prod.snd htn.step_eq_advance
    rw [hlast, Answer.isFinal_iff_advance.1 hfinal] at this
    exact this
  obtain ⟨answers, hsettles, hreckons⟩ := htally'.settled
  obtain rfl := hsettles.eq_of_ne (by simp [hdone])
  rw [options_afterSteps, hread] at hreckons
  obtain ⟨hsame, hcounts⟩ := Answer.judgements_concat_of_isFinal hfinal (readBy (r.actions n))
  refine ⟨readBy (r.actions n), _, ⟨?_, ?_, hfinal⟩, hread, ?_, ?_,
    (ht.afterSteps (n + 1)).willing, hending⟩
  · have := htally'.answers 0
    rwa [hread, List.length_append, Nat.add_zero, BoardSource.answers, List.append_nil] at this
  · rw [← r.options_afterSteps n]
    exact htally.going (by simp [isTerminated, hlast])
  · rw [← hsame]
    exact hreckons.sent
  · rw [← hcounts]
    exact hreckons.summary

/-- **What a run that leaves bad boards out comes to.**  It reads the answers of its source up
to the first that ends the stream. -/
theorem RunsTo.exists_covers {run : Run κ} (h : r.RunsTo run) (ht : r.Tolerant)
    (hphase : r.phase = .reading) (hsummary : r.summary = {}) :
    ∃ before final, Stream r.options.missingKing r.source before final ∧
      run.Covers r.options.missingKing before final := by
  cases h with
  | closed h =>
    obtain ⟨before, final, hstream, hread, hsent, hcounts, hwilling, hending⟩ :=
      h.exists_read ht hphase hsummary
    have hclose := close_of_willing hwilling
    refine ⟨before, final, hstream, ⟨?_, ?_, ?_, ?_⟩⟩
    · rw [Run.actions_after, Run.readBy_append, hread, hclose]
      exact List.append_nil _
    · rw [Run.sent_after, hsent, sent_close, List.append_nil]
    · rw [hending, Run.outcome_after, hclose, hcounts]
      rfl
    · rw [Run.finishes_after, h.count_finish, hclose]
      rfl
  | failed h =>
    obtain ⟨before, final, hstream, hread, hsent, -, -, hending⟩ :=
      h.exists_read ht hphase hsummary
    exact ⟨before, final, hstream, ⟨hread, hsent, (hending _).symm, h.count_finish⟩⟩

/-- Over a source with a stream, the run reads the stream. -/
theorem Tolerant.covers {σ : Type} [BoardSource σ] {r : Referee σ κ} (ht : r.Tolerant)
    (hphase : r.phase = .reading) (hsummary : r.summary = {}) {before : List Answer}
    {final : Answer} (hstream : Stream r.options.missingKing r.source before final) :
    r.run.Covers r.options.missingKing before final := by
  obtain ⟨before', final', hstream', hcovers⟩ :=
    r.runsTo_run.exists_covers ht hphase hsummary
  obtain ⟨rfl, rfl⟩ := hstream.unique hstream'
  exact hcovers

end Referee
end KingCheck
