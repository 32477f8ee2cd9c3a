import KingCheck.Proofs.Referee.Receipt

/-!
# Exchanging the sink

A run looks at its sink only to learn whether a report was taken.  So a run whose sink takes
every report tells what the run into any other sink does (`Halts.follows`): the same, if
the other sink takes these reports too (`RunsTo.withSink_of_taken`), and if not, the run
stops at the first that it refuses (`RunsTo.withSink_of_refused`).
-/
namespace KingCheck

namespace Referee

open ReportSink (deliver deliver_cons_of_ok deliver_cons_of_error)
open Run (sentBy)

variable {σ κ κ' : Type} {r : Referee σ κ}

/-- The referee with another sink. -/
def withSink (r : Referee σ κ) (sink : κ') : Referee σ κ' :=
  ⟨r.source, sink, r.options, r.phase, r.boardsRead, r.summary⟩

variable [Supply σ]

theorem Refuses.withSink {next : Referee σ κ} {reason : BoardError} {done : List Action}
    (h : r.Refuses next reason done) (sink : κ') :
    (r.withSink sink).Refuses (next.withSink sink) reason done := by
  cases h with
  | drawing hphase hnext hrows => exact .drawing hphase hnext hrows
  | kings hphase hjudged => exact .kings hphase hjudged

variable [ReportSink κ] [ReportSink κ']

/-- A step that sends nothing does not depend on the sink. -/
theorem Transition.withSink {s : Step σ κ} (h : r.Transition s) (hsilent : sentBy s.actions = [])
    (sink : κ') :
    (r.withSink sink).Transition ⟨s.outcome, s.actions, s.next.withSink sink⟩ := by
  cases h with
  | failed hphase hnext => exact .failed hphase hnext
  | exhausted hphase hnext => exact .exhausted hphase hnext
  | cleared hphase hnext hrows hempty => exact .cleared hphase hnext hrows hempty
  | taken hphase hnext hrows hempty => exact .taken hphase hnext hrows hempty
  | aborted hrefused habort => exact .aborted (hrefused.withSink sink) habort
  | skipped hrefused hskip => exact .skipped (hrefused.withSink sink) hskip
  | sent | unsent => simp at hsilent
  | idle hphase => exact .idle hphase

/-- What is made of a run's reports by another sink: it takes them all, and the run is the
same, or it refuses one, and the run stops there. -/
structure Follows (r : Referee σ κ) (sink : κ') (done : List Action) (outcome : Except Failure Unit)
    (last : Referee σ κ) : Prop where
  halts : ∀ other, deliver sink (sentBy done) = (.ok (), other) →
    (r.withSink sink).Halts done outcome (last.withSink other)
  stops : ∀ failure other, deliver sink (sentBy done) = (.error failure, other) →
    ∃ begun stopped, (r.withSink sink).Halts begun (.error failure) stopped ∧
      stopped.sink = other ∧ begun <+: done

namespace Follows

variable {sink : κ'} {done : List Action} {outcome : Except Failure Unit} {last : Referee σ κ}

omit [ReportSink κ] in
/-- Where nothing is sent, the sink is not asked. -/
theorem of_silent (hsilent : sentBy done = [])
    (h : (r.withSink sink).Halts done outcome (last.withSink sink)) :
    r.Follows sink done outcome last := by
  constructor
  · intro other hother
    rw [hsilent] at hother
    obtain rfl : sink = other := congrArg Prod.snd hother
    exact h
  · intro failure other hother
    rw [hsilent] at hother
    simp at hother

/-- A step that sends nothing comes before the rest. -/
theorem more_of_silent {next : Referee σ κ} {first : List Action}
    (hstep : r.Transition ⟨.ok true, first, next⟩) (hsilent : sentBy first = [])
    (h : next.Follows sink done outcome last) : r.Follows sink (first ++ done) outcome last := by
  have hother := (hstep.withSink hsilent sink).step_eq
  have hsent : sentBy (first ++ done) = sentBy done := by
    rw [Run.sentBy_append, hsilent, List.nil_append]
  constructor
  · intro other htaken
    exact .more hother (h.halts other (hsent ▸ htaken))
  · intro failure other hrefused
    obtain ⟨begun, stopped, hhalts, hsink, hbegun⟩ := h.stops failure other (hsent ▸ hrefused)
    exact ⟨_, stopped, .more hother hhalts, hsink, (List.prefix_append_right_inj first).2 hbegun⟩

omit [ReportSink κ] in
/-- A report that is sent is taken by the other sink too, or the run stops at it. -/
theorem more_of_sent {board : Board} {j : Judgement} {taken : κ}
    (hphase : r.phase = .evaluating board)
    (hjudged : board.evaluate r.options.missingKing = .ok j)
    (h : ∀ sink : κ', ({ r with
      sink := taken
      phase := .reading
      summary := { r.summary with games := r.summary.games + 1 } } : Referee σ κ).Follows sink done
        outcome last) :
    r.Follows sink (judgingActions board j (r.reportOn j) ++ done) outcome last := by
  have hsent : sentBy (judgingActions board j (r.reportOn j) ++ done) =
      r.reportOn j :: sentBy done := by
    rw [Run.sentBy_append, sentBy_judgingActions, List.singleton_append]
  rcases hemit : ReportSink.emit sink (r.reportOn j) with ⟨failure | _, after⟩
  · have hstep := (Transition.unsent (r := r.withSink sink) hphase hjudged hemit).step_eq
    have hdeliver : deliver sink (r.reportOn j :: sentBy done) = (.error failure, after) :=
      deliver_cons_of_error hemit
    constructor
    · intro other htaken
      rw [hsent, hdeliver] at htaken
      simp at htaken
    · intro failure' other hrefused
      rw [hsent, hdeliver] at hrefused
      obtain ⟨rfl, rfl⟩ : failure = failure' ∧ after = other := by simpa using hrefused
      exact ⟨_, _, .failed hstep, rfl, List.prefix_append _ _⟩
  · have hstep := (Transition.sent (r := r.withSink sink) hphase hjudged hemit).step_eq
    have hdeliver : deliver sink (r.reportOn j :: sentBy done) = deliver after (sentBy done) :=
      deliver_cons_of_ok hemit
    constructor
    · intro other htaken
      rw [hsent, hdeliver] at htaken
      exact .more hstep ((h after).halts other htaken)
    · intro failure other hrefused
      rw [hsent, hdeliver] at hrefused
      obtain ⟨begun, stopped, hhalts, hsink, hbegun⟩ := (h after).stops failure other hrefused
      exact ⟨_, stopped, .more hstep hhalts, hsink, (List.prefix_append_right_inj _).2 hbegun⟩

end Follows

/-- **A run whose sink takes every report tells what a run into any other sink does.** -/
theorem Halts.follows {done : List Action} {outcome : Except Failure Unit} {last : Referee σ κ}
    (h : r.Halts done outcome last) (hall : (deliver r.sink (sentBy done)).1 = .ok ())
    (sink : κ') : r.Follows sink done outcome last := by
  induction h generalizing sink with
  | @ended r last done hstep =>
    have hway := transition_of_step_eq hstep
    have hsilent : sentBy done = [] := by
      cases hway <;> rfl
    exact .of_silent hsilent (.ended (hway.withSink hsilent sink).step_eq)
  | @failed r last done failure hstep =>
    have hway := transition_of_step_eq hstep
    have hsilent : sentBy done = [] := by
      cases hway with
      | failed => rfl
      | aborted hrefused => exact hrefused.sentBy_eq_nil
      | unsent _ _ hemit =>
        -- The sink of this run takes every report, so that no step fails for a report.
        rw [sentBy_judgingActions, deliver_cons_of_error hemit] at hall
        simp at hall
    exact .of_silent hsilent (.failed (hway.withSink hsilent sink).step_eq)
  | @more r next last first done outcome hstep hrest ih =>
    have hway := transition_of_step_eq hstep
    cases hway with
    | taken hphase hnext hrows hempty =>
      exact .more_of_silent (.taken hphase hnext hrows hempty) rfl (ih hall sink)
    | skipped hrefused hskip =>
      have hsilent := hrefused.sentBy_append_note
      rw [Run.sentBy_append, hsilent, List.nil_append, ← hrefused.sink_eq] at hall
      exact .more_of_silent (.skipped hrefused hskip) (hsilent _) (ih hall sink)
    | sent hphase hjudged hemit =>
      rw [Run.sentBy_append, sentBy_judgingActions, List.singleton_append,
        deliver_cons_of_ok hemit] at hall
      exact .more_of_sent hphase hjudged (ih hall)

/-- A sink that takes every report is left as the reports leave it. -/
theorem Halts.sink_eq {done : List Action} {outcome : Except Failure Unit} {last : Referee σ κ}
    (h : r.Halts done outcome last) {sink : κ}
    (hall : deliver r.sink (sentBy done) = (.ok (), sink)) : last.sink = sink := by
  rw [← h.receives.left_eq, hall]

omit [Supply σ] in
/-- Closing shows nothing of the sink but what it answers. -/
theorem close_withSink {sink : κ'}
    (hfinish : (ReportSink.finish sink).1 = (ReportSink.finish r.sink).1) :
    (r.withSink sink).close.outcome = r.close.outcome ∧
      (r.withSink sink).close.actions = r.close.actions ∧
      (r.withSink sink).close.sink = (ReportSink.finish sink).2 := by
  rcases hr : ReportSink.finish r.sink with ⟨answer, left⟩
  rcases hs : ReportSink.finish sink with ⟨answer', left'⟩
  rw [hr, hs] at hfinish
  obtain rfl : answer' = answer := hfinish
  cases answer' <;> simp [close, withSink, hr, hs]

/-- A run into another sink that takes every report does and comes to the same. -/
theorem RunsTo.withSink_of_taken {free : Run κ} (h : r.RunsTo free) {sink other : κ'} {full : κ}
    (hall : deliver r.sink free.sent = (.ok (), full))
    (hother : deliver sink free.sent = (.ok (), other))
    (hfinish : (ReportSink.finish other).1 = (ReportSink.finish full).1)
    (hkept : (ReportSink.finish other).2 = other) :
    ∃ run, (r.withSink sink).RunsTo run ∧ run.outcome = free.outcome ∧
      run.actions = free.actions ∧ run.sink = other := by
  cases h with
  | @closed done last h =>
    rw [Run.sent_after, sent_close, List.append_nil] at hall hother
    have hhalts := (h.follows (by rw [hall]) sink).halts other hother
    rw [← h.sink_eq hall] at hfinish
    obtain ⟨houtcome, hactions, hsink⟩ := close_withSink hfinish
    exact ⟨_, .closed hhalts, houtcome, by simp [hactions], hsink.trans hkept⟩
  | @failed done failure last h =>
    have hfree : (deliver r.sink (sentBy done)).1 = .ok () := congrArg Prod.fst hall
    exact ⟨_, .failed ((h.follows hfree sink).halts other hother), rfl, rfl, rfl⟩

/-- A sink that takes every report got those of the run. -/
theorem RunsTo.sink_eq {free : Run κ} (h : r.RunsTo free) {full : κ}
    (hall : deliver r.sink free.sent = (.ok (), full)) (hkept : (ReportSink.finish full).2 = full) :
    free.sink = full := by
  obtain ⟨stepped, hreaches⟩ := h.reaches
  have hsink := hreaches.sink_eq (by rwa [hall])
  rwa [hall] at hsink

/-- A run into another sink does the same up to the first report that the sink refuses. -/
theorem RunsTo.withSink_of_refused {free : Run κ} (h : r.RunsTo free) {sink other : κ'}
    {failure : Failure} (hall : (deliver r.sink free.sent).1 = .ok ())
    (hother : deliver sink free.sent = (.error failure, other)) :
    ∃ run, (r.withSink sink).RunsTo run ∧ run.outcome = .error failure ∧ run.sink = other ∧
      run.finishes = 0 ∧ run.actions <+: free.actions := by
  have hstops : ∀ {done : List Action} {outcome : Except Failure Unit} {last : Referee σ κ},
      r.Halts done outcome last → sentBy done = free.sent → done <+: free.actions →
      ∃ run, (r.withSink sink).RunsTo run ∧ run.outcome = .error failure ∧ run.sink = other ∧
        run.finishes = 0 ∧ run.actions <+: free.actions := by
    intro done outcome last h hsent hdone
    rw [← hsent] at hall hother
    obtain ⟨begun, stopped, hhalts, hsink, hbegun⟩ :=
      (h.follows hall sink).stops failure other hother
    exact ⟨_, .failed hhalts, rfl, hsink, hhalts.count_finish, hbegun.trans hdone⟩
  cases h with
  | closed h =>
    refine hstops h ?_ (List.prefix_append _ _)
    rw [Run.sent_after, sent_close, List.append_nil]
  | failed h => exact hstops h rfl List.prefix_rfl

end Referee
end KingCheck
