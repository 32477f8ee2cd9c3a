import KingCheck.Failure
import KingCheck.Output.Writer
import KingCheck.Report

/-!
# Sinks of reports

A sink takes one report after another and is told when there are no more.  Reports are
written as lines to a writer, either as text or as JSON objects, or kept in a list.
-/
namespace KingCheck

/-- A place that reports go to; a sink that fails may have changed all the same. -/
class ReportSink (κ : Type) where
  /-- Take one report. -/
  emit : κ → Report → Except Failure Unit × κ
  /-- There are no more reports. -/
  finish : κ → Except Failure Unit × κ

namespace Output

open Text (octets)

/-- Reports are written to a writer, one a line. -/
structure LineSink where
  format : Format
  writer : Writer := {}
deriving DecidableEq

namespace LineSink

variable (sink : LineSink)

/-- Write a string; `blame` says what kind of failure a refusal is. -/
def put (s : String) (blame : String → Failure) : Except Failure Unit × LineSink :=
  let (outcome, writer) := sink.writer.write (octets s)
  (outcome.mapError blame, { sink with writer })

/-- Write one report.  A line of text is written at once.  An object is written before
its newline, and only a failure inside the object is one of JSON. -/
def emit (r : Report) : Except Failure Unit × LineSink :=
  match sink.format with
  | .text => sink.put (r.text ++ "\n") .device
  | .json =>
    match sink.put r.json .json with
    | (.ok (), sink) => sink.put "\n" .device
    | failed => failed

/-- Flush the writer. -/
def finish : Except Failure Unit × LineSink := (sink.writer.flush.mapError .device, sink)

end LineSink

instance : ReportSink LineSink where
  emit := LineSink.emit
  finish := LineSink.finish

/-- Reports are kept in a list, up to a capacity if there is one. -/
structure ReportList where
  kept : Array Report := #[]
  capacity : Option Nat := none
  refusal : String := ""
  finishFailure : Option String := none
deriving DecidableEq

namespace ReportList

variable (sink : ReportList)

/-- Keep one report if there is room. -/
def emit (r : Report) : Except Failure Unit × ReportList :=
  if sink.capacity.all (sink.kept.size < ·) then
    (.ok (), { sink with kept := sink.kept.push r })
  else (.error (.device sink.refusal), sink)

/-- The list keeps as it is. -/
def finish : Except Failure Unit × ReportList :=
  match sink.finishFailure with
  | none => (.ok (), sink)
  | some text => (.error (.device text), sink)

end ReportList

instance : ReportSink ReportList where
  emit := ReportList.emit
  finish := ReportList.finish

end Output
end KingCheck
