import KingCheck.Proofs.Board.RoundTrip
import KingCheck.Proofs.Input.Opening
import KingCheck.Proofs.Referee.Halting

/-!
# The board without pieces ends the stream

A run asks its source for nothing behind an answer that ends the stream.  So it comes to the
same over any two supplies that agree up to such an answer (`RunsTo.withSource`), and the
board without pieces is one: what a source has behind it never shows, and neither do the
octets behind its eighth row.
-/
namespace KingCheck

/-- The drawing of the board without pieces. -/
def Drawing.cleared : Drawing := List.replicate boardSize "........"

namespace Answer

/-- A drawing ends the stream exactly if it is of a board without pieces. -/
theorem isFinal_rows_iff {policy : MissingKing} {drawing : Drawing} :
    (Answer.rows drawing).isFinal policy = true ↔
      ∃ board, Board.ofRows drawing = .ok board ∧ board.isEmpty = true := by
  cases hrows : Board.ofRows drawing with
  | error reason => simp [isFinal, fate, hrows]
  | ok board =>
    cases hempty : board.isEmpty with
    | true => simp [isFinal, fate, hrows, hempty]
    | false => cases hj : board.evaluate policy <;> simp [isFinal, fate, hrows, hempty, hj]

theorem isFinal_cleared (policy : MissingKing) :
    (Answer.rows Drawing.cleared).isFinal policy = true := by
  cases policy <;> decide +kernel

end Answer

namespace BoardSource

/-- The first answers of a list are those it begins with. -/
theorem answers_append (before : List Answer) (a : Answer) (behind : List Answer) :
    answers (before.length + 1) (before ++ a :: behind) = before ++ [a] := by
  induction before with
  | nil => rfl
  | cons answer before ih => exact congrArg (List.cons answer) ih

end BoardSource

namespace Input

/-- The rows of the board without pieces are a block. -/
theorem blocks_cleared : blocks Drawing.cleared = [Drawing.cleared] := by
  have hdrop : Drawing.cleared.dropWhile isBlankRow =
      "........" :: List.replicate (boardSize - 1) "........" := by decide
  rw [blocks_of_dropWhile_eq_cons hdrop]
  exact congrArg (List.cons Drawing.cleared) blocks_nil

namespace Reader

/-- A reader that begins with whole blocks and eight lines of dots hands out the blocks and
the board without pieces. -/
theorem Begins.answers_cleared {r : Reader} {lines : List Text.Octets}
    (h : r.Begins (lines ++ Drawing.cleared.map Text.octets))
    (hwhole : ∀ block ∈ blocks (lines.map rowOf), block.length = boardSize) :
    BoardSource.answers (((blocks (lines.map rowOf)).map Answer.rows).length + 1) r =
      (blocks (lines.map rowOf)).map .rows ++ [.rows Drawing.cleared] := by
  have hdots : (Drawing.cleared.map Text.octets).map rowOf = Drawing.cleared := by
    decide +kernel
  have hblocks : blocks ((lines ++ Drawing.cleared.map Text.octets).map rowOf) =
      blocks (lines.map rowOf) ++ [Drawing.cleared] := by
    rw [List.map_append, hdots, blocks_append_of_whole hwhole, blocks_cleared]
  have hall : ∀ block ∈ blocks ((lines ++ Drawing.cleared.map Text.octets).map rowOf),
      block.length = boardSize := by
    intro block hblock
    rw [hblocks, List.mem_append, List.mem_singleton] at hblock
    rcases hblock with hbefore | rfl
    · exact hwhole block hbefore
    · rfl
  have hanswers := h.answers hall
  rwa [hblocks, List.length_append, List.length_singleton, List.map_append, List.map_singleton,
    ← List.length_map (f := Answer.rows)] at hanswers

end Reader

end Input

/-- Two supplies answer the same up to an answer that ends the stream. -/
inductive Supply.Agree {σ τ : Type} [Supply σ] [Supply τ] (policy : MissingKing) :
    σ → τ → Prop where
  | final {s : σ} {t : τ} (hsame : (next s).1 = (next t).1)
      (hfinal : (next s).1.isFinal policy = true) : Agree policy s t
  | more {s : σ} {t : τ} (hsame : (next s).1 = (next t).1)
      (hrest : Agree policy (next s).2 (next t).2) : Agree policy s t

namespace Supply.Agree

variable {σ τ : Type} [Supply σ] [Supply τ] {policy : MissingKing} {s source : σ} {t : τ}
  {a : Answer}

/-- The next answer is the same. -/
theorem next_eq (h : Agree policy s t) (hnext : next s = (a, source)) :
    next t = (a, (next t).2) := by
  have hsame : (next s).1 = (next t).1 := by
    cases h with
    | final hsame | more hsame => exact hsame
  rw [hnext] at hsame
  exact Prod.ext hsame.symm rfl

/-- Behind an answer that does not end the stream, the supplies still agree. -/
theorem rest (h : Agree policy s t) (hnext : next s = (a, source))
    (hmore : ¬ a.isFinal policy = true) : Agree policy source (next t).2 := by
  cases h with
  | final _ hfinal =>
    rw [hnext] at hfinal
    exact absurd hfinal hmore
  | more _ hrest =>
    rw [hnext] at hrest
    exact hrest

/-- Supplies agree that answer the same until the stream ends. -/
theorem of_answers {last : Answer} (hfinal : last.isFinal policy = true) {before : List Answer}
    (hs : BoardSource.answers (before.length + 1) s = before ++ [last])
    (ht : BoardSource.answers (before.length + 1) t = before ++ [last]) : Agree policy s t := by
  induction before generalizing s t with
  | nil =>
    obtain hs : (next s).1 = last := (List.cons.inj hs).1
    obtain ht : (next t).1 = last := (List.cons.inj ht).1
    exact .final (hs.trans ht.symm) (hs ▸ hfinal)
  | cons answer before ih =>
    obtain ⟨hfirst, hs⟩ := List.cons.inj hs
    obtain ⟨hfirst', ht⟩ := List.cons.inj ht
    exact .more (hfirst.trans hfirst'.symm) (ih hs ht)

end Supply.Agree

namespace Referee

open BoardSource (answers answers_append)
open Supply (Agree)

variable {σ τ κ : Type} {r : Referee σ κ} {t : τ}

/-- The referee with another source. -/
def withSource (r : Referee σ κ) (t : τ) : Referee τ κ :=
  ⟨t, r.sink, r.options, r.phase, r.boardsRead, r.summary⟩

variable [Supply σ] [Supply τ]

theorem Refuses.withSource {next : Referee σ κ} {reason : BoardError} {done : List Action}
    (h : r.Refuses next reason done) (hagree : Agree r.options.missingKing r.source t) :
    ∃ rest : τ, (r.withSource t).Refuses (next.withSource rest) reason done ∧
      Agree next.options.missingKing next.source rest := by
  cases h with
  | drawing hphase hnext hrows =>
    -- A drawing that is refused is not of a board, so that it does not end the stream.
    refine ⟨_, .drawing hphase (hagree.next_eq hnext) hrows, hagree.rest hnext ?_⟩
    simp [Answer.isFinal_rows_iff, hrows]
  | kings hphase hjudged => exact ⟨t, .kings hphase hjudged, hagree⟩

variable [ReportSink κ]

/-- A step does not tell apart sources that agree, and while there is more to do they still
agree. -/
theorem Transition.withSource {s : Step σ κ} (h : r.Transition s)
    (hagree : Agree r.options.missingKing r.source t) :
    ∃ rest : τ, (r.withSource t).Transition ⟨s.outcome, s.actions, s.next.withSource rest⟩ ∧
      (s.outcome = .ok true → Agree s.next.options.missingKing s.next.source rest) := by
  cases h with
  | failed hphase hnext => exact ⟨_, .failed hphase (hagree.next_eq hnext), by simp⟩
  | exhausted hphase hnext => exact ⟨_, .exhausted hphase (hagree.next_eq hnext), by simp⟩
  | cleared hphase hnext hrows hempty =>
    exact ⟨_, .cleared hphase (hagree.next_eq hnext) hrows hempty, by simp⟩
  | taken hphase hnext hrows hempty =>
    refine ⟨_, .taken hphase (hagree.next_eq hnext) hrows hempty,
      fun _ => hagree.rest hnext ?_⟩
    simp [Answer.isFinal_rows_iff, hrows, hempty]
  | aborted hrefused habort =>
    obtain ⟨rest, hrefused', -⟩ := hrefused.withSource hagree
    exact ⟨rest, .aborted hrefused' habort, by simp⟩
  | skipped hrefused hskip =>
    obtain ⟨rest, hrefused', hrest⟩ := hrefused.withSource hagree
    exact ⟨rest, .skipped hrefused' hskip, fun _ => hrest⟩
  | sent hphase hjudged hemit => exact ⟨t, .sent hphase hjudged hemit, fun _ => hagree⟩
  | unsent hphase hjudged hemit => exact ⟨t, .unsent hphase hjudged hemit, by simp⟩
  | idle hphase => exact ⟨t, .idle hphase, by simp⟩

/-- Steps that are repeated to the end do not tell apart sources that agree. -/
theorem Halts.withSource {done : List Action} {outcome : Except Failure Unit}
    {last : Referee σ κ} (h : r.Halts done outcome last)
    (hagree : Agree r.options.missingKing r.source t) :
    ∃ rest : τ, (r.withSource t).Halts done outcome (last.withSource rest) := by
  induction h generalizing t with
  | @ended r last done hstep =>
    have hway := transition_of_step_eq hstep
    obtain ⟨rest, hway', -⟩ := hway.withSource hagree
    exact ⟨rest, .ended hway'.step_eq⟩
  | @failed r last done failure hstep =>
    have hway := transition_of_step_eq hstep
    obtain ⟨rest, hway', -⟩ := hway.withSource hagree
    exact ⟨rest, .failed hway'.step_eq⟩
  | @more r next last first done outcome hstep _ ih =>
    have hway := transition_of_step_eq hstep
    obtain ⟨rest, hway', hrest⟩ := hway.withSource hagree
    obtain ⟨left, hleft⟩ := ih (hrest rfl)
    exact ⟨left, .more hway'.step_eq hleft⟩

/-- **A run comes to the same over any two supplies that agree until the stream ends.** -/
theorem RunsTo.withSource {run : Run κ} (h : r.RunsTo run)
    (hagree : Agree r.options.missingKing r.source t) : (r.withSource t).RunsTo run := by
  cases h with
  | closed h =>
    obtain ⟨rest, hrest⟩ := h.withSource hagree
    exact .closed hrest
  | failed h =>
    obtain ⟨rest, hrest⟩ := h.withSource hagree
    exact .failed hrest

/-- A run over a source whose answers lead to the board without pieces is the run over these
answers alone. -/
theorem runsTo_of_answers {before : List Answer} {sink : κ} {options : Options} {s : σ}
    (h : answers (before.length + 1) s = before ++ [.rows Drawing.cleared]) :
    ({ source := s, sink, options } : Referee σ κ).RunsTo
      ({ source := before ++ [.rows Drawing.cleared], sink, options } :
        Referee (List Answer) κ).run := by
  have hlist : answers (before.length + 1) (before ++ [Answer.rows Drawing.cleared]) =
      before ++ [.rows Drawing.cleared] := answers_append before _ []
  exact (runsTo_run (⟨before ++ [.rows Drawing.cleared], sink, options, .reading, 0, {}⟩ :
    Referee (List Answer) κ)).withSource
    (.of_answers (Answer.isFinal_cleared options.missingKing) hlist h)

/-- **Nothing behind the board without pieces shows.**  Two runs come to the same, with the
same result, the same calls of the sink and the same log, if their sources give the same
answers up to a board without pieces, however they go on; in particular if the answers are
listed, and if two readers begin with the same lines, which are whole blocks with blank lines
between them, and then with eight lines of dots. -/
theorem run_unaffected_behind_cleared (sink : κ) (options : Options) :
    (∀ before behind behind' : List Answer,
      ({ source := before ++ .rows Drawing.cleared :: behind, sink, options } :
        Referee (List Answer) κ).run =
      ({ source := before ++ .rows Drawing.cleared :: behind', sink, options } :
        Referee (List Answer) κ).run) ∧
    (∀ (before : List Answer) (s : σ) (t : τ),
      answers (before.length + 1) s = before ++ [.rows Drawing.cleared] →
      answers (before.length + 1) t = before ++ [.rows Drawing.cleared] →
      ∃ run, ({ source := s, sink, options } : Referee σ κ).RunsTo run ∧
        ({ source := t, sink, options } : Referee τ κ).RunsTo run) ∧
    (∀ (lines : List Text.Octets) (reader reader' : Input.Reader),
      (∀ block ∈ Input.blocks (lines.map Input.rowOf), block.length = boardSize) →
      reader.Begins (lines ++ Drawing.cleared.map Text.octets) →
      reader'.Begins (lines ++ Drawing.cleared.map Text.octets) →
      ({ source := reader, sink, options } : Referee Input.Reader κ).run =
      ({ source := reader', sink, options } : Referee Input.Reader κ).run) := by
  refine ⟨fun before behind behind' => ?_, ?_, ?_⟩
  · exact (runsTo_iff.1 (runsTo_of_answers (answers_append before _ behind))).trans
      (runsTo_iff.1 (runsTo_of_answers (answers_append before _ behind'))).symm
  · intro before s t hs ht
    exact ⟨_, runsTo_of_answers hs, runsTo_of_answers ht⟩
  · intro lines reader reader' hwhole hreader hreader'
    exact (runsTo_iff.1 (runsTo_of_answers (hreader.answers_cleared hwhole))).trans
      (runsTo_iff.1 (runsTo_of_answers (hreader'.answers_cleared hwhole))).symm

/-- A board and the board without pieces, and behind them a failure or all of it again: a
list, a reader that fails and a reader that is interrupted come to the same. -/
theorem run_unaffected_behind_cleared_failure :
    let options : Options := ⟨.skip, .ignore⟩
    let listed (behind : List Answer) : Run Output.ReportList :=
      ({ source := [.rows Drawing.twoKings] ++ .rows Drawing.cleared :: behind, sink := {},
         options } : Referee (List Answer) Output.ReportList).run
    let lines := Text.octets "" :: Drawing.twoKings.map Text.octets
    let text := (lines ++ Drawing.cleared.map Text.octets).flatMap (· ++ [Input.newline])
    let failing : Input.Reader := [.chunk text, .failure "gone"]
    let interrupted : Input.Reader :=
      [.chunk (text.take 7), .interrupted, .chunk (text.drop 7 ++ text)]
    let delivered (reader : Input.Reader) : Run Output.ReportList :=
      ({ source := reader, sink := {}, options } :
        Referee Input.Reader Output.ReportList).run
    (listed []).outcome = .ok ⟨1, 0⟩ ∧ listed [.failed (.device "gone")] = listed [] ∧
    listed [] = delivered failing ∧ delivered failing = delivered interrupted := by
  intro options listed lines text failing interrupted delivered
  have hlines : ∀ line ∈ lines ++ Drawing.cleared.map Text.octets, Input.newline ∉ line := by
    decide +kernel
  have hwhole : ∀ block ∈ Input.blocks (lines.map Input.rowOf), block.length = boardSize := by
    decide +kernel
  have hfailing : failing.Begins (lines ++ Drawing.cleared.map Text.octets) :=
    ⟨hlines, [.chunk text], [.failure "gone"], rfl, fun _ h => by simp at h,
      List.prefix_append _ _⟩
  have hinterrupted : interrupted.Begins (lines ++ Drawing.cleared.map Text.octets) := by
    refine ⟨hlines, interrupted, [], rfl, fun _ h => by simp [interrupted] at h, text, ?_⟩
    simp [interrupted, Input.Reader.octets, ← List.append_assoc, List.take_append_drop, text]
  obtain ⟨hlisted, hsupplied, hdelivered⟩ :=
    run_unaffected_behind_cleared (σ := List Answer) (τ := Input.Reader)
      ({} : Output.ReportList) options
  obtain ⟨run, hrun, hrun'⟩ := hsupplied [.rows Drawing.twoKings]
    [.rows Drawing.twoKings, .rows Drawing.cleared] failing rfl (by decide +kernel)
  refine ⟨by decide +kernel, hlisted [.rows Drawing.twoKings] _ _, ?_, ?_⟩
  · exact (runsTo_iff.1 hrun).trans (runsTo_iff.1 hrun').symm
  · exact hdelivered lines failing interrupted hwhole hfailing hinterrupted

end Referee
end KingCheck
