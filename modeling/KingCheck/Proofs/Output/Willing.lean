import KingCheck.Output.Sink

/-!
# Sinks that never fail

A sink never fails if it takes every report, whatever it was given before, and can be
told the end at any time.  Lines written to a device with unlimited room are such a
sink, and so are reports kept in a list without a capacity.
-/
namespace KingCheck

namespace ReportSink

variable {κ : Type} [ReportSink κ]

/-- The sink after it was given some reports. -/
def given (sink : κ) (reports : List Report) : κ :=
  reports.foldl (fun sink r => (emit sink r).2) sink

/-- The sink never fails. -/
structure Willing (sink : κ) : Prop where
  emit_given : ∀ reports r, (emit (given sink reports) r).1 = .ok ()
  finish_given : ∀ reports, (finish (given sink reports)).1 = .ok ()

namespace Willing

variable {sink : κ}

theorem emit_ok (h : Willing sink) (r : Report) : (emit sink r).1 = .ok () := h.emit_given [] r

theorem finish_ok (h : Willing sink) : (finish sink).1 = .ok () := h.finish_given []

/-- A sink that never fails stays so. -/
theorem emit (h : Willing sink) (r : Report) : Willing (emit sink r).2 where
  emit_given := by intro reports; exact h.emit_given (r :: reports)
  finish_given := by intro reports; exact h.finish_given (r :: reports)

/-- A property that every report keeps and that lets reports pass makes a sink willing. -/
theorem of_invariant (P : κ → Prop) (hsink : P sink)
    (hemit : ∀ s r, P s → (ReportSink.emit s r).1 = .ok () ∧ P (ReportSink.emit s r).2)
    (hfinish : ∀ s, P s → (finish s).1 = .ok ()) : Willing sink := by
  have hgiven : ∀ reports, P (given sink reports) := by
    intro reports
    induction reports generalizing sink with
    | nil => exact hsink
    | cons r reports ih => exact ih (hemit sink r hsink).2
  constructor
  · intro reports r
    exact (hemit _ r (hgiven reports)).1
  · intro reports
    exact hfinish _ (hgiven reports)

end Willing
end ReportSink

namespace Output

open ReportSink (Willing)
open Text (octets)

/-- Without a capacity a list keeps every report. -/
theorem ReportList.willing {sink : ReportList} (hcapacity : sink.capacity = none)
    (hfinish : sink.finishFailure = none) : Willing sink := by
  refine Willing.of_invariant (fun s => s.capacity = none ∧ s.finishFailure = none)
    ⟨hcapacity, hfinish⟩ ?_ ?_
  · intro s r hs
    simp [ReportSink.emit, emit, hs.1, hs.2]
  · intro s hs
    simp [ReportSink.finish, finish, hs.2]

/-- The whole line that tells a report in a format. -/
def line (format : Format) (r : Report) : String :=
  match format with
  | .text => r.text ++ "\n"
  | .json => r.json ++ "\n"

namespace LineSink

variable {sink : LineSink}

theorem put_of_limit_eq_none (h : sink.writer.limit = none) (s : String)
    (blame : String → Failure) : sink.put s blame =
      (.ok (), { sink with
        writer := { sink.writer with written := sink.writer.written ++ octets s } }) := by
  rw [put, Writer.write_of_limit_eq_none _ h]
  rfl

/-- Without a limit every report adds its line. -/
theorem emit_of_limit_eq_none (h : sink.writer.limit = none) (r : Report) : sink.emit r =
    (.ok (), { sink with writer := { sink.writer with
      written := sink.writer.written ++ octets (line sink.format r) } }) := by
  obtain ⟨format, writer⟩ := sink
  cases format with
  | text => exact put_of_limit_eq_none h _ _
  | json =>
    simp only [emit, line, put_of_limit_eq_none h]
    rw [put_of_limit_eq_none]
    · have hwritten : writer.written ++ octets r.json ++ octets "\n" =
          writer.written ++ octets (r.json ++ "\n") := Array.ext' (by simp [octets])
      rw [← hwritten]
    · exact h

/-- A device with unlimited room takes every line. -/
theorem willing (hlimit : sink.writer.limit = none) (hflush : sink.writer.flushFailure = none) :
    Willing sink := by
  refine Willing.of_invariant (fun s => s.writer.limit = none ∧ s.writer.flushFailure = none)
    ⟨hlimit, hflush⟩ ?_ ?_
  · intro s r hs
    have hemit : ReportSink.emit s r = _ := emit_of_limit_eq_none hs.1 r
    rw [hemit]
    exact ⟨rfl, hs⟩
  · intro s hs
    have hflushed : s.writer.flush = .ok () := by simp [Writer.flush, hs.2]
    change s.writer.flush.mapError Failure.device = .ok ()
    rw [hflushed]
    rfl

end LineSink
end Output
end KingCheck
