import KingCheck.Proofs.Board.RoundTrip
import KingCheck.Proofs.Referee.Exchange

/-!
# Runs into a sink that fails

A sink that fails got the beginning of what it would have got.  A run that could go on says
which reports are sent; a device with limited room makes of them the octets for which there
is room, and a list with a capacity the first reports.
-/
namespace KingCheck

namespace Referee

open Output

variable {σ : Type} [Supply σ]

section Device

variable {r : Referee σ LineSink} {free : Run LineSink} {format : Format} {flush : Option String}
  {room : Nat}

/-- The octets that a device with unlimited room took are those of the reports' lines. -/
theorem RunsTo.written_eq (h : r.RunsTo free) (hsink : r.sink = .unlimited format #[] flush) :
    free.sink.writer.written.toList = lineOctets format free.sent := by
  have hall := LineSink.deliver_unlimited format #[] flush free.sent
  rw [← hsink] at hall
  rw [h.sink_eq hall rfl]
  simp [LineSink.unlimited]

/-- Where there is room for all lines, the limit does not show. -/
theorem RunsTo.limited_of_length_le (h : r.RunsTo free)
    (hsink : r.sink = .unlimited format #[] flush) (refusal : String)
    (hroom : (lineOctets format free.sent).length ≤ room) :
    ∃ run, (r.withSink (LineSink.limited format #[] room refusal flush)).RunsTo run ∧
      run.sink.writer.written.toList = lineOctets format free.sent ∧
      run.outcome = free.outcome ∧ run.actions = free.actions := by
  have hall := LineSink.deliver_unlimited format #[] flush free.sent
  rw [← hsink] at hall
  have hother := LineSink.deliver_of_length_le hroom #[] refusal flush
  obtain ⟨run, hrun, houtcome, hactions, hlast⟩ := h.withSink_of_taken hall hother rfl rfl
  refine ⟨run, hrun, ?_, houtcome, hactions⟩
  rw [hlast]
  simp [LineSink.limited]

/-- Where there is no room for all lines, the run stops at the first octet that is refused. -/
theorem RunsTo.limited_of_length_lt (h : r.RunsTo free)
    (hsink : r.sink = .unlimited format #[] flush) (refusal : String)
    (hroom : room < (lineOctets format free.sent).length) :
    ∃ run, (r.withSink (LineSink.limited format #[] room refusal flush)).RunsTo run ∧
      run.sink.writer.written.toList = (lineOctets format free.sent).take room ∧
      run.finishes = 0 ∧ run.actions <+: free.actions ∧
      run.outcome = .error (refusalAt format (lineOctets format free.sent)[room] refusal) := by
  have hall := LineSink.deliver_unlimited format #[] flush free.sent
  have hother := LineSink.deliver_of_length_lt hroom #[] refusal flush
  obtain ⟨run, hrun, houtcome, hlast, hfinishes, hbegun⟩ :=
    h.withSink_of_refused (by rw [hsink, hall]) hother
  refine ⟨run, hrun, ?_, hfinishes, hbegun, houtcome⟩
  rw [hlast]
  simp [LineSink.limited]

end Device

section List

variable {r : Referee σ ReportList} {free : Run ReportList} {finishFailure : Option String}
  {capacity : Nat}

/-- What a list answers to the end does not depend on what it kept. -/
theorem finish_reportList_congr {sink other : ReportList}
    (h : sink.finishFailure = other.finishFailure) :
    (ReportSink.finish sink).1 = (ReportSink.finish other).1 := by
  rcases sink with ⟨_, _, _, _ | _⟩ <;> rcases other with ⟨_, _, _, _ | _⟩ <;> cases h <;> rfl

/-- A list without a capacity keeps the reports of the run. -/
theorem RunsTo.kept_eq (h : r.RunsTo free) (hsink : r.sink = { finishFailure }) :
    free.sink.kept.toList = free.sent := by
  have hall := ReportList.deliver_of_capacity_eq_none #[] "" finishFailure free.sent
  rw [h.sink_eq (hsink ▸ hall) (ReportList.finish_keeps _)]
  simp

/-- Where there is room for all reports, the capacity does not show. -/
theorem RunsTo.bounded_of_length_le (h : r.RunsTo free) (hsink : r.sink = { finishFailure })
    (refusal : String) (hroom : free.sent.length ≤ capacity) :
    ∃ run, (r.withSink (⟨#[], some capacity, refusal, finishFailure⟩ : ReportList)).RunsTo run ∧
      run.sink.kept.toList = free.sent ∧ run.outcome = free.outcome ∧
      run.actions = free.actions := by
  have hall := ReportList.deliver_of_capacity_eq_none #[] "" finishFailure free.sent
  rw [← hsink] at hall
  have hother := ReportList.deliver_of_size_add_le #[] refusal finishFailure
    (by simpa using hroom)
  obtain ⟨run, hrun, houtcome, hactions, hlast⟩ :=
    h.withSink_of_taken hall hother (finish_reportList_congr rfl) (ReportList.finish_keeps _)
  refine ⟨run, hrun, ?_, houtcome, hactions⟩
  rw [hlast]
  simp

/-- Where there is no room for all reports, the run stops at the first that is refused. -/
theorem RunsTo.bounded_of_lt_length (h : r.RunsTo free) (hsink : r.sink = { finishFailure })
    (refusal : String) (hroom : capacity < free.sent.length) :
    ∃ run, (r.withSink (⟨#[], some capacity, refusal, finishFailure⟩ : ReportList)).RunsTo run ∧
      run.sink.kept.toList = free.sent.take capacity ∧ run.finishes = 0 ∧
      run.actions <+: free.actions ∧ run.outcome = .error (.device refusal) := by
  have hall := ReportList.deliver_of_capacity_eq_none #[] "" finishFailure free.sent
  have hother := ReportList.deliver_of_lt_size_add #[] refusal finishFailure
    (Nat.zero_le capacity) (by simpa using hroom)
  obtain ⟨run, hrun, houtcome, hlast, hfinishes, hbegun⟩ :=
    h.withSink_of_refused (by rw [hsink, hall]) hother
  refine ⟨run, hrun, ?_, hfinishes, hbegun, houtcome⟩
  rw [hlast]
  simp

end List

/-- **A sink that fails got the beginning of what it would have got.**  Where a device has
room for some octets only, a run into it writes as many of the octets of the run into a
device with unlimited room.  If these are all, the runs do and come to the same; if not, the
run does the same up to a failure, which the first octet refused tells, and the sink is not
told the end.  A list that refuses the report after its last place keeps the reports before it, and
the run stops with the list's failure exactly if there is such a report, unless the other
run stops with the same failure by itself. -/
theorem runsTo_failing_sink (source : σ) (options : Options) :
    (∀ (format : Format) (flush : Option String) (limit : Limit) (free : Run LineSink),
      ({ source, sink := ⟨format, { flushFailure := flush }⟩, options } :
        Referee σ LineSink).RunsTo free →
      let out := free.sink.writer.written.toList
      ∃ run, ({ source, sink := ⟨format, { limit := some limit, flushFailure := flush }⟩,
                options } : Referee σ LineSink).RunsTo run ∧
        (out.length ≤ limit.room → run.sink.writer.written.toList = out ∧
          run.outcome = free.outcome ∧ run.actions = free.actions) ∧
        ∀ _ : limit.room < out.length,
          run.sink.writer.written.toList = out.take limit.room ∧ run.finishes = 0 ∧
          run.actions <+: free.actions ∧
          run.outcome = .error (refusalAt format out[limit.room] limit.refusal)) ∧
    (∀ (capacity : Nat) (refusal : String) (finishFailure : Option String) (free : Run ReportList),
      ({ source, sink := { finishFailure }, options } : Referee σ ReportList).RunsTo free →
      ∃ run, ({ source, sink := { capacity := some capacity, refusal, finishFailure }, options } :
          Referee σ ReportList).RunsTo run ∧
        run.sink.kept.toList = free.sink.kept.toList.take capacity ∧
        (run.outcome = .error (.device refusal) ↔
          capacity < free.sent.length ∨ free.outcome = .error (.device refusal)) ∧
        (free.sent.length ≤ capacity →
          run.outcome = free.outcome ∧ run.actions = free.actions) ∧
        (capacity < free.sent.length → run.finishes = 0 ∧ run.actions <+: free.actions)) := by
  constructor
  · intro format flush limit free hfree out
    have hout : out = lineOctets format free.sent := hfree.written_eq rfl
    clear_value out
    subst hout
    rcases Nat.lt_or_ge limit.room (lineOctets format free.sent).length with hlt | hle
    · obtain ⟨run, hrun, hcut⟩ := hfree.limited_of_length_lt rfl limit.refusal hlt
      exact ⟨run, hrun, fun hle => absurd hlt (Nat.not_lt.2 hle), fun _ => hcut⟩
    · obtain ⟨run, hrun, hsame⟩ := hfree.limited_of_length_le rfl limit.refusal hle
      exact ⟨run, hrun, fun _ => hsame, fun hlt => absurd hlt (Nat.not_lt.2 hle)⟩
  · intro capacity refusal finishFailure free hfree
    rw [hfree.kept_eq rfl]
    rcases Nat.lt_or_ge capacity free.sent.length with hlt | hle
    · obtain ⟨run, hrun, hkept, hfinishes, hbegun, houtcome⟩ :=
        hfree.bounded_of_lt_length rfl refusal hlt
      exact ⟨run, hrun, hkept, by simp [houtcome, hlt], fun hle => absurd hlt (Nat.not_lt.2 hle),
        fun _ => ⟨hfinishes, hbegun⟩⟩
    · obtain ⟨run, hrun, hkept, houtcome, hactions⟩ := hfree.bounded_of_length_le rfl refusal hle
      refine ⟨run, hrun, ?_, ?_, fun _ => ⟨houtcome, hactions⟩,
        fun hlt => absurd hlt (Nat.not_lt.2 hle)⟩
      · rw [hkept, List.take_of_length_le hle]
      · simp [houtcome, Nat.not_lt.2 hle]

/-- One object of 52 octets and its newline, on devices with room for 7, 52 and 53 octets;
and two reports, of which a list keeps one. -/
theorem runsTo_failing_sink_cutLine :
    let free : Run LineSink :=
      ({ source := [.rows Drawing.twoKings], sink := ⟨.json, {}⟩ } :
        Referee (List Answer) LineSink).run
    let cut (room : Nat) : Run LineSink :=
      ({ source := [.rows Drawing.twoKings], sink := ⟨.json, { limit := some ⟨room, "full"⟩ }⟩ } :
        Referee (List Answer) LineSink).run
    let kept : Run ReportList :=
      ({ source := [.rows Drawing.twoKings, .rows Drawing.twoKings],
         sink := { capacity := some 1, refusal := "full" } } : Referee (List Answer) ReportList).run
    free.sink.writer.written.size = 53 ∧
    (cut 7).sink.writer.written.toList = free.sink.writer.written.toList.take 7 ∧
    (cut 7).outcome = .error (.json "full") ∧ (cut 52).outcome = .error (.device "full") ∧
    (cut 53).outcome = free.outcome ∧ (cut 52).finishes = 0 ∧
    kept.outcome = .error (.device "full") ∧ kept.finishes = 0 := by
  intro free cut kept
  have hsize : free.sink.writer.written.toList.length = 53 := by decide +kernel
  have hfree := fun room =>
    (runsTo_failing_sink [Answer.rows Drawing.twoKings] {}).1 .json none ⟨room, "full"⟩ free
      (runsTo_run _)
  obtain ⟨run, hrun, -, hseven⟩ := hfree 7
  obtain rfl : cut 7 = run := runsTo_iff.1 hrun
  obtain ⟨run, hrun, -, hend⟩ := hfree 52
  obtain rfl : cut 52 = run := runsTo_iff.1 hrun
  obtain ⟨run, hrun, hall, -⟩ := hfree 53
  obtain rfl : cut 53 = run := runsTo_iff.1 hrun
  obtain ⟨run, hrun, -, hrefused, -, hlist⟩ :=
    (runsTo_failing_sink [Answer.rows Drawing.twoKings, .rows Drawing.twoKings] {}).2 1 "full" none
      _ (runsTo_run _)
  obtain rfl : kept = run := runsTo_iff.1 hrun
  refine ⟨hsize, (hseven ?_).1, (hseven ?_).2.2.2.trans (congrArg Except.error ?_),
    (hend ?_).2.2.2.trans (congrArg Except.error ?_), (hall (Nat.le_of_eq hsize)).2.1,
    (hend ?_).2.1, hrefused.2 (.inl ?_), (hlist ?_).1⟩
  all_goals decide +kernel

end Referee
end KingCheck
