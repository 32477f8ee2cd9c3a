import KingCheck.Proofs.Referee.Sentinel

/-!
# Runs over sources that answer alike

A run learns of its source what it answers, and no more.  So it comes to the same over two
sources that answer every call alike (`run_withSource`), and the answers of a reader whose reads
do not fail depend on its octets alone: how these are cut into deliveries, and where reads are
interrupted, shows neither in the answers nor in a run (`run_unaffected_by_delivery`).
-/
namespace KingCheck

open BoardSource (answers)

variable {σ τ κ : Type}

/-- A source comes to an answer that ends the stream, and up to it supplies agree that answer every
call alike. -/
theorem Supply.Agree.of_forall_answers [BoardSource σ] [Supply τ] {policy : MissingKing} {s : σ}
    {t : τ} (h : ∀ n, answers n s = answers n t) : Supply.Agree policy s t := by
  generalize hn : BoardSource.remaining s = n
  induction n using Nat.strongRecOn generalizing s t with
  | ind n ih =>
    have hsame : (Supply.next s).1 = (Supply.next t).1 := (List.cons.inj (h 1)).1
    have hrest : ∀ m, answers m (Supply.next s).2 = answers m (Supply.next t).2 :=
      fun m => (List.cons.inj (h (m + 1))).2
    cases hanswer : (Supply.next s).1 with
    | rows drawing =>
      have hlt := BoardSource.remaining_lt hanswer
      exact .more hsame (ih _ (hn ▸ hlt) hrest rfl)
    | exhausted | failed failure => exact .final hsame (by rw [hanswer]; rfl)

namespace Referee

variable [ReportSink κ]

/-- **A run comes to the same over a source that answers every call alike.** -/
theorem run_withSource [BoardSource σ] [BoardSource τ] (r : Referee σ κ) {t : τ}
    (h : ∀ n, answers n r.source = answers n t) : (r.withSource t).run = r.run :=
  runsTo_iff.1 (r.runsTo_run.withSource (.of_forall_answers h))

/-- **How octets are delivered never shows.**  A reader that delivers octets in chunks, with any
number of interruptions before, between and behind them, answers every call as the reader that
delivers them at once, and so a run over it has the same result, does the same in the same order,
the log included, and leaves the same sink. -/
theorem run_unaffected_by_delivery {reader : Input.Reader} {bytes : Text.Octets}
    (hsteady : reader.Steady) (hbytes : reader.octets = bytes) (sink : κ) (options : Options) :
    (∀ n, answers n reader = answers n (Input.Reader.ofOctets bytes)) ∧
    ({ source := reader, sink, options } : Referee Input.Reader κ).run =
      ({ source := .ofOctets bytes, sink, options } : Referee Input.Reader κ).run := by
  have hanswers : ∀ n, answers n reader = answers n (Input.Reader.ofOctets bytes) := by
    have hrows : reader.rows = (Input.Reader.ofOctets bytes).rows := by
      rw [Input.Reader.rows, Input.Reader.rows, hbytes, Input.Reader.octets_ofOctets]
    exact Input.Reader.answers_eq_of_blocks_eq hsteady (Input.Reader.steady_ofOctets bytes)
      (by rw [hrows])
  exact ⟨hanswers, (run_withSource ⟨reader, sink, options, .reading, 0, {}⟩ hanswers).symm⟩

/-- A wide blank is cut in the middle, a return from its newline, and a row in two: two kings are
judged as if the text came at once. -/
theorem run_unaffected_by_delivery_tornReturn :
    let text := Text.octets ("\u00a0\n" ++ "\r\n".intercalate Drawing.twoKings)
    let reader : Input.Reader :=
      [.interrupted, .chunk (text.take 1), .interrupted, .interrupted,
        .chunk ((text.take 12).drop 1), .chunk ((text.take 18).drop 12), .chunk (text.drop 18),
        .interrupted]
    let delivered (reader : Input.Reader) : Run Output.ReportList :=
      ({ source := reader, sink := {}, options := {} } :
        Referee Input.Reader Output.ReportList).run
    reader.Steady ∧ reader.octets = text ∧
    answers 2 reader = [.rows Drawing.twoKings, .exhausted] ∧
    delivered reader = delivered (.ofOctets text) ∧
    (delivered reader).outcome = .ok ⟨1, 0⟩ := by
  intro text reader delivered
  have hsteady : reader.Steady := fun _ h => by simp [reader] at h
  have hbytes : reader.octets = text := by decide +kernel
  obtain ⟨hanswers, hrun⟩ := run_unaffected_by_delivery hsteady hbytes ({} : Output.ReportList) {}
  refine ⟨hsteady, hbytes, (hanswers 2).trans (by decide +kernel), hrun, ?_⟩
  exact (congrArg Run.outcome hrun).trans (by decide +kernel)

end Referee
end KingCheck
