import KingCheck.Proofs.Output.ReadBack
import KingCheck.Proofs.Referee.Refusal
import Mathlib.Data.Option.Basic

/-!
# Sinks agree

A run learns nothing from a sink that takes every report, so that runs into two such sinks do
and come to the same (`RunsTo.withSink_of_willing`).  Text, objects and a list of reports are
then three ways of writing down one thing: the list has the reports, the objects tell them
all, and the text tells their numbers and verdicts.
-/
namespace KingCheck

namespace Output

/-- **Objects tell their reports.** -/
theorem lineOctets_json_injective : Function.Injective (lineOctets .json) := by
  intro reports other h
  have hread := map_ofJson?_pieces reports
  rw [h, map_ofJson?_pieces] at hread
  exact (List.map_injective_iff.2 (Option.some_injective Report) hread).symm

/-- **Lines of text tell numbers and verdicts.** -/
theorem map_game_verdict_of_lineOctets_text {reports other : List Report}
    (h : lineOctets .text reports = lineOctets .text other) :
    reports.map (fun r => (r.game, r.verdict)) = other.map fun r => (r.game, r.verdict) := by
  have hread := map_ofText?_pieces reports
  rw [h, map_ofText?_pieces] at hread
  apply List.map_injective_iff.2 (Option.some_injective (Nat × Verdict))
  rw [List.map_map, List.map_map]
  exact hread.symm

end Output

namespace Referee

open Output
open ReportSink (Willing)
open Text (octets pieces)

variable {σ κ κ' : Type} [Supply σ] [ReportSink κ] [ReportSink κ'] {r : Referee σ κ}

/-- **Runs into sinks that never fail do and come to the same.** -/
theorem RunsTo.withSink_of_willing {free : Run κ} (h : r.RunsTo free) (hfree : Willing r.sink)
    {sink : κ'} (hsink : Willing sink) (hkeeps : ∀ s : κ', (ReportSink.finish s).2 = s) :
    ∃ run, (r.withSink sink).RunsTo run ∧ run.outcome = free.outcome ∧
      run.actions = free.actions := by
  obtain ⟨full, hall, hfull⟩ := hfree.deliver_ok free.sent
  obtain ⟨other, hother, hwilling⟩ := hsink.deliver_ok free.sent
  have hfinish : (ReportSink.finish other).1 = (ReportSink.finish full).1 := by
    rw [hwilling.finish_ok, hfull.finish_ok]
  obtain ⟨run, hrun, houtcome, hactions, -⟩ :=
    h.withSink_of_taken hall hother hfinish (hkeeps other)
  exact ⟨run, hrun, houtcome, hactions⟩

/-- Of runs into sinks that never fail, all come to an end if one does. -/
theorem exists_runsTo_withSink_iff (hfree : Willing r.sink)
    (hfreeKeeps : ∀ s : κ, (ReportSink.finish s).2 = s) {sink : κ'} (hsink : Willing sink)
    (hkeeps : ∀ s : κ', (ReportSink.finish s).2 = s) :
    (∃ run, (r.withSink sink).RunsTo run) ↔ ∃ run, r.RunsTo run := by
  constructor
  · rintro ⟨run, hrun⟩
    obtain ⟨other, hother, -⟩ := hrun.withSink_of_willing hsink hfree hfreeKeeps
    exact ⟨other, hother⟩
  · rintro ⟨run, hrun⟩
    obtain ⟨other, hother, -⟩ := hrun.withSink_of_willing hfree hsink hkeeps
    exact ⟨other, hother⟩

/-- **Text, objects and a list of reports agree.**  Of runs over one source into a device for
text, a device for objects and a list, none of which fails, all come to an end if one does;
they come to the same, and do the same, with the same log.  The text is the line of each
report on the list.  The lines of the device for objects tell the reports on the list, one
line each, and the lines of text tell their numbers and verdicts; hence different lists make
different objects, and lists with different numbers or verdicts different texts. -/
theorem sinks_agree (source : σ) (options : Options) :
    let start {κ : Type} (sink : κ) : Referee σ κ := { source, sink, options }
    let text : LineSink := ⟨.text, {}⟩
    let json : LineSink := ⟨.json, {}⟩
    let list : ReportList := {}
    ((∃ run, (start text).RunsTo run) ↔ ∃ run, (start list).RunsTo run) ∧
    ((∃ run, (start json).RunsTo run) ↔ ∃ run, (start list).RunsTo run) ∧
    (∀ inText inJson inList,
      (start text).RunsTo inText → (start json).RunsTo inJson → (start list).RunsTo inList →
      inText.outcome = inList.outcome ∧ inJson.outcome = inList.outcome ∧
      inText.actions = inList.actions ∧ inJson.actions = inList.actions ∧
      inText.sink.writer.written.toList =
        inList.sink.kept.toList.flatMap (fun r => octets (r.text ++ "\n")) ∧
      inJson.sink.writer.written.toList = lineOctets .json inList.sink.kept.toList ∧
      (pieces Input.newline inJson.sink.writer.written.toList).map
        (fun line => Report.ofJson? (Text.ofOctets line)) = inList.sink.kept.toList.map some ∧
      (pieces Input.newline inText.sink.writer.written.toList).map
        (fun line => Report.ofText? (Text.ofOctets line)) =
          inList.sink.kept.toList.map fun r => some (r.game, r.verdict)) ∧
    Function.Injective (lineOctets .json) ∧
    ∀ reports other, lineOctets .text reports = lineOctets .text other →
      reports.map (fun r => (r.game, r.verdict)) = other.map fun r => (r.game, r.verdict) := by
  intro start text json list
  have htext : Willing text := LineSink.willing rfl rfl
  have hjson : Willing json := LineSink.willing rfl rfl
  have hlist : Willing list := ReportList.willing rfl rfl
  have hline : ∀ s : LineSink, (ReportSink.finish s).2 = s := fun s => rfl
  refine ⟨?_, ?_, ?_, lineOctets_json_injective, fun _ _ => map_game_verdict_of_lineOctets_text⟩
  · exact exists_runsTo_withSink_iff (r := start list) hlist ReportList.finish_keeps htext hline
  · exact exists_runsTo_withSink_iff (r := start list) hlist ReportList.finish_keeps hjson hline
  · intro inText inJson inList hinText hinJson hinList
    obtain ⟨run, hrun, htextOutcome, htextActions⟩ :=
      hinList.withSink_of_willing hlist htext hline
    obtain rfl : inText = run := hinText.unique hrun
    obtain ⟨run, hrun, hjsonOutcome, hjsonActions⟩ :=
      hinList.withSink_of_willing hlist hjson hline
    obtain rfl : inJson = run := hinJson.unique hrun
    have hkept : inList.sink.kept.toList = inList.sent := hinList.kept_eq rfl
    have htextSent : inText.sent = inList.sent := congrArg Run.sentBy htextActions
    have hjsonSent : inJson.sent = inList.sent := congrArg Run.sentBy hjsonActions
    have htextWritten := hinText.written_eq rfl
    have hjsonWritten := hinJson.written_eq rfl
    rw [htextSent, ← hkept] at htextWritten
    rw [hjsonSent, ← hkept] at hjsonWritten
    refine ⟨htextOutcome, hjsonOutcome, htextActions, hjsonActions, htextWritten, hjsonWritten,
      ?_, ?_⟩
    · rw [hjsonWritten, map_ofJson?_pieces]
    · rw [htextWritten]
      exact map_ofText?_pieces _

/-- A black king that a rook attacks along its column, and a board that is left out: the
object tells the rook and its square, the text that the king is in check. -/
theorem sinks_agree_rookCheck :
    let start {κ : Type} (sink : κ) : Referee (List Answer) κ :=
      { source := [.rows ["k"], .rows Drawing.rookCheck], sink, options := ⟨.skip, .refuse⟩ }
    let report : Report := ⟨1, .blackInCheck, some ⟨.rook, .white, ⟨7, 0⟩⟩⟩
    let inText := (start (⟨.text, {}⟩ : LineSink)).run
    let inJson := (start (⟨.json, {}⟩ : LineSink)).run
    let inList := (start ({} : ReportList)).run
    inList.sink.kept.toList = [report] ∧ inList.outcome = .ok ⟨1, 1⟩ ∧
    inText.outcome = inList.outcome ∧ inJson.outcome = inList.outcome ∧
    inText.sink.writer.written.toList = octets "Game #1: black king is in check.\n" ∧
    (pieces Input.newline inJson.sink.writer.written.toList).map
      (fun line => Report.ofJson? (Text.ofOctets line)) = [some report] := by
  intro start report inText inJson inList
  have hkept : inList.sink.kept.toList = [report] := by decide +kernel
  have hsummary : inList.outcome = .ok ⟨1, 1⟩ := by decide +kernel
  obtain ⟨-, -, hagree, -⟩ :=
    sinks_agree [Answer.rows ["k"], .rows Drawing.rookCheck] ⟨.skip, .refuse⟩
  obtain ⟨htext, hjson, -, -, hwritten, -, htold, -⟩ :=
    hagree inText inJson inList (runsTo_run _) (runsTo_run _) (runsTo_run _)
  rw [hkept] at hwritten htold
  refine ⟨hkept, hsummary, htext, hjson, hwritten.trans ?_, htold⟩
  decide +kernel

end Referee
end KingCheck
