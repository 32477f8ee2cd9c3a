import KingCheck.Proofs.Board.Kings
import KingCheck.Proofs.Referee.Tally

/-!
# Refusing boards without a king

Whether a missing king is ignored or refused decides only which boards are judged, and not
how.  Runs that leave bad boards out therefore read the same under both policies and go step by
step side by side (`Abreast`); the reports of one are those of the other at the boards with one
king of each side.  Where a bad board ends the run, the run that refuses missing kings is the
other one up to the first board that it refuses and the other does not.
-/
namespace KingCheck

/-- How many boards were judged or left out. -/
def Summary.total (summary : Summary) : Nat := summary.games + summary.skipped

/-- Of the counts only their sum is seen in the sum of the counts at the end. -/
theorem Fate.map_total_ending (fate : Fate) (k : Nat) {summary other : Summary}
    (h : summary.total = other.total) :
    (fate.ending k summary).map Summary.total = (fate.ending k other).map Summary.total := by
  cases fate with
  | failed failure | refused reason => rfl
  | judged board j | ended => exact congrArg Except.ok h

namespace Answer

/-- The answer is of a board with exactly one king of each side. -/
def hasBothKings : Answer → Bool
  | .rows drawing =>
    match Board.ofRows drawing with
    | .ok board => board.kingCount .white == 1 && board.kingCount .black == 1
    | .error _ => false
  | _ => false

variable {a : Answer}

/-- What is judged of an answer is the judgement on its board. -/
theorem judgement?_eq_some_iff {policy : MissingKing} {j : Judgement} :
    a.judgement? policy = some j ↔ ∃ drawing board, a = .rows drawing ∧
      Board.ofRows drawing = .ok board ∧ board.isEmpty = false ∧ board.evaluate policy = .ok j := by
  cases a with
  | exhausted | failed failure => simp [judgement?, fate]
  | rows drawing =>
    cases hrows : Board.ofRows drawing with
    | error reason => simp [judgement?, fate, hrows]
    | ok board =>
      cases hempty : board.isEmpty with
      | true => simp [judgement?, fate, hrows, hempty]
      | false =>
        cases hjudged : board.evaluate policy <;>
          simp [judgement?, fate, hrows, hempty, hjudged]

/-- Where a missing king is refused, the judged answers are those with both kings, and are
judged as they are where it is ignored. -/
theorem judgement?_refuse :
    a.judgement? .refuse = if a.hasBothKings then a.judgement? .ignore else none := by
  ext j
  rw [judgement?_eq_some_iff]
  by_cases hboth : a.hasBothKings = true
  · rw [if_pos hboth, judgement?_eq_some_iff]
    constructor
    · rintro ⟨drawing, board, ha, hrows, hempty, hjudged⟩
      exact ⟨drawing, board, ha, hrows, hempty, (Board.evaluate_refuse_eq_ok_iff.1 hjudged).2⟩
    · rintro ⟨drawing, board, rfl, hrows, hempty, hjudged⟩
      have hkings : board.kingCount .white = 1 ∧ board.kingCount .black = 1 := by
        simpa [hasBothKings, hrows] using hboth
      exact ⟨drawing, board, rfl, hrows, hempty,
        Board.evaluate_refuse_eq_ok_iff.2 ⟨hkings, hjudged⟩⟩
  · rw [if_neg hboth]
    constructor
    · rintro ⟨drawing, board, rfl, hrows, -, hjudged⟩
      have hkings := (Board.evaluate_refuse_eq_ok_iff.1 hjudged).1
      exact absurd (by simp [hasBothKings, hrows, hkings]) hboth
    · intro h
      simp at h

/-- The end of a stream does not depend on the policy for missing kings. -/
theorem isFinal_congr (policy other : MissingKing) : a.isFinal policy = a.isFinal other := by
  rw [Bool.eq_iff_iff, isFinal_iff_advance, isFinal_iff_advance]

/-- An answer that ends the stream has the same fate under both policies. -/
theorem fate_congr_of_isFinal {policy : MissingKing} (h : a.isFinal policy = true)
    (other : MissingKing) : a.fate policy = a.fate other := by
  cases a with
  | exhausted | failed failure => rfl
  | rows rows =>
    obtain ⟨board, hrows, hempty⟩ := isFinal_rows_iff.1 h
    simp [fate, hrows, hempty]

theorem judgements_refuse (answers : List Answer) :
    judgements .refuse answers = judgements .ignore (answers.filter hasBothKings) := by
  rw [judgements, judgements, List.filterMap_filter]
  exact congrArg (List.filterMap · answers) (funext fun _ => judgement?_refuse)

/-- An answer is judged, or refused, or ends the stream. -/
theorem judged_or_refused_or_final (policy : MissingKing) (a : Answer) :
    (∃ j, a.judgement? policy = some j ∧ a.isRefused policy = false ∧ a.isFinal policy = false) ∨
    (a.judgement? policy = none ∧ a.isRefused policy = true ∧ a.isFinal policy = false) ∨
    (a.judgement? policy = none ∧ a.isRefused policy = false ∧ a.isFinal policy = true) := by
  rw [judgement?, isRefused, isFinal]
  cases a.fate policy <;> simp

/-- The numbers of judged and of refused answers make up those that do not end the stream. -/
theorem total_counts (policy : MissingKing) (answers : List Answer) :
    (counts policy answers).total = answers.countP fun a => !a.isFinal policy := by
  induction answers with
  | nil => rfl
  | cons a answers ih =>
    simp only [Summary.total, counts, judgements] at ih ⊢
    rw [List.filterMap_cons, List.countP_cons, List.countP_cons]
    rcases judged_or_refused_or_final policy a with ⟨j, hj, hr, hf⟩ | ⟨hj, hr, hf⟩ | ⟨hj, hr, hf⟩
    · simp only [hj, hr, hf, List.length_cons, Bool.not_false, if_true, Bool.false_eq_true,
        if_false]
      omega
    · simp only [hj, hr, hf, Bool.not_false, if_true]
      omega
    · simp only [hj, hr, hf, Bool.not_true, Bool.false_eq_true, if_false]
      omega

/-- Both policies leave the same number of answers judged or refused. -/
theorem total_counts_congr (policy other : MissingKing) (answers : List Answer) :
    (counts policy answers).total = (counts other answers).total := by
  rw [total_counts, total_counts]
  simp only [isFinal_congr policy other]

end Answer

/-- The stream of a supply does not depend on the policy for missing kings. -/
theorem Supply.Stream.congr {σ : Type} [Supply σ] {policy other : MissingKing} {source : σ}
    {before : List Answer} {final : Answer} (h : Supply.Stream policy source before final) :
    Supply.Stream other source before final := by
  refine ⟨h.answers, ?_, ?_⟩
  · intro a ha
    rw [Answer.isFinal_congr other policy]
    exact h.going a ha
  · rw [Answer.isFinal_congr other policy]
    exact h.ended

/-- Under both policies the same answers were read.  The reports are on all that are judged
where a missing king is ignored, and on those of them that have one king of each side; either
way they are numbered from 1. -/
structure Run.Narrows (loose strict : List Action) : Prop where
  read : readBy strict = readBy loose
  sent : sentBy loose = Report.numbered 0 (Answer.judgements .ignore (readBy loose))
  kept : sentBy strict =
    Report.numbered 0 (Answer.judgements .ignore ((readBy loose).filter Answer.hasBothKings))

namespace Referee

open ReportSink (deliver Willing)
open Run (readBy sentBy)

variable {σ κ : Type} [Supply σ] [ReportSink κ]

section Skip

/-- Two referees that leave bad boards out stand at the same place of the same source. -/
structure Abreast (r s : Referee σ κ) : Prop where
  tolerant : r.Tolerant
  other : s.Tolerant
  source : s.source = r.source
  phase : s.phase = r.phase

namespace Abreast

variable {r s : Referee σ κ}

/-- **Referees that stand at the same place read the same and go on to the same place.** -/
theorem step (h : Abreast r s) :
    Abreast r.step.next s.step.next ∧ readBy s.step.actions = readBy r.step.actions := by
  have hphase : s.step.next.phase = r.step.next.phase := by
    have hr := congrArg Prod.snd h.tolerant.step_eq_advance
    have hs := congrArg Prod.snd h.other.step_eq_advance
    rw [h.source, h.phase] at hs
    exact hs.trans hr.symm
  have hread : readBy s.step.actions = readBy r.step.actions ∧
      s.step.next.source = r.step.next.source := by
    cases hr : r.phase with
    | reading =>
      obtain ⟨hread, hsource, -⟩ := step_of_reading hr
      obtain ⟨hread', hsource', -⟩ := step_of_reading (h.phase.trans hr)
      rw [hread, hread', hsource, hsource', h.source]
      exact ⟨rfl, rfl⟩
    | evaluating board =>
      obtain ⟨hread, hsource, -⟩ := step_of_evaluating hr
      obtain ⟨hread', hsource', -⟩ := step_of_evaluating (h.phase.trans hr)
      rw [hread, hread', hsource, hsource']
      exact ⟨rfl, h.source⟩
    | terminated =>
      have hdone := step_of_isTerminated (r := r) (by simp [isTerminated, hr])
      have hdone' := step_of_isTerminated (r := s) (by simp [isTerminated, h.phase, hr])
      rw [hdone, hdone']
      exact ⟨rfl, h.source⟩
  exact ⟨⟨h.tolerant.step, h.other.step, hread.2, hphase⟩, hread.1⟩

/-- They stay abreast, however many steps they are asked for. -/
theorem afterSteps (h : Abreast r s) (n : Nat) :
    Abreast (r.afterSteps n) (s.afterSteps n) ∧ readBy (s.actions n) = readBy (r.actions n) := by
  induction n with
  | zero => exact ⟨h, rfl⟩
  | succ n ih =>
    obtain ⟨hnext, hread⟩ := ih.1.step
    rw [afterSteps_succ, afterSteps_succ, actions_succ, actions_succ, Run.readBy_append,
      Run.readBy_append, ih.2, hread]
    exact ⟨hnext, rfl⟩

/-- A run of one ends exactly if a run of the other does. -/
theorem exists_runsTo_iff (h : Abreast r s) : (∃ run, r.RunsTo run) ↔ ∃ run, s.RunsTo run := by
  rw [Referee.exists_runsTo_iff, Referee.exists_runsTo_iff]
  simp only [isTerminated, (h.afterSteps _).1.phase]

end Abreast

end Skip

section Abort

/-- The referee that refuses missing kings, and else is the same. -/
def refusing (r : Referee σ κ) : Referee σ κ :=
  { r with options := { r.options with missingKing := .refuse } }

variable {r : Referee σ κ}

/-- Where a bad board ends the run, a referee that waits and refuses its board does nothing
and is done. -/
theorem step_of_refused {board : Board} {reason : BoardError}
    (habort : r.options.onMalformed = .abort) (hphase : r.phase = .evaluating board)
    (hjudged : board.evaluate r.options.missingKing = .error reason) :
    r.step.actions = [] ∧ ∃ failure, r.step.outcome = .error failure := by
  rw [(Transition.aborted (.kings hphase hjudged) habort).step_eq]
  exact ⟨rfl, _, rfl⟩

/-- **Refusing missing kings, a referee takes the same step or stops with an error.** -/
theorem step_refusing (habort : r.options.onMalformed = .abort)
    (hignore : r.options.missingKing = .ignore) :
    r.refusing.step = ⟨r.step.outcome, r.step.actions, r.step.next.refusing⟩ ∨
      r.refusing.step.actions = [] ∧ ∃ failure, r.refusing.step.outcome = .error failure := by
  by_cases hrefuses : ∃ board reason,
      r.phase = .evaluating board ∧ board.evaluate .refuse = .error reason
  · obtain ⟨board, reason, hphase, hjudged⟩ := hrefuses
    exact .inr (step_of_refused (r := r.refusing) habort hphase hjudged)
  -- A board that waits and is judged is judged alike.
  have hagree : ∀ board, r.phase = .evaluating board →
      board.evaluate .refuse = board.evaluate r.options.missingKing := by
    intro board hphase
    cases hstrict : board.evaluate .refuse with
    | error reason => exact absurd ⟨board, reason, hphase, hstrict⟩ hrefuses
    | ok j => rw [hignore, (Board.evaluate_refuse_eq_ok_iff.1 hstrict).2]
  left
  have hstep := r.transition_step
  generalize r.step = s at hstep ⊢
  apply Transition.step_eq
  cases hstep with
  | failed hphase hnext => exact Transition.failed (r := r.refusing) hphase hnext
  | exhausted hphase hnext => exact Transition.exhausted (r := r.refusing) hphase hnext
  | cleared hphase hnext hrows hempty =>
    exact Transition.cleared (r := r.refusing) hphase hnext hrows hempty
  | taken hphase hnext hrows hempty =>
    exact Transition.taken (r := r.refusing) hphase hnext hrows hempty
  | skipped _ hskip => simp [habort] at hskip
  | aborted hrefused =>
    cases hrefused with
    | drawing hphase hnext hrows =>
      exact Transition.aborted (r := r.refusing) (.drawing hphase hnext hrows) habort
    | kings hphase hjudged =>
      rw [← hagree _ hphase] at hjudged
      exact Transition.aborted (r := r.refusing) (.kings hphase hjudged) habort
  | sent hphase hjudged hemit =>
    rw [← hagree _ hphase] at hjudged
    exact Transition.sent (r := r.refusing) hphase hjudged hemit
  | unsent hphase hjudged hemit =>
    rw [← hagree _ hphase] at hjudged
    exact Transition.unsent (r := r.refusing) hphase hjudged hemit
  | idle hphase => exact Transition.idle (r := r.refusing) hphase

/-- A referee that is done does nothing. -/
theorem actions_of_isTerminated (h : r.isTerminated = true) (n : Nat) : r.actions n = [] := by
  rw [actions, steps_of_isTerminated h, List.flatMap_eq_nil_iff]
  intro s hs
  rw [List.eq_of_mem_replicate hs]

/-- **What it does in any number of steps is where the other began.** -/
theorem isPrefix_actions_refusing (habort : r.options.onMalformed = .abort)
    (hignore : r.options.missingKing = .ignore) (n : Nat) :
    r.refusing.actions n <+: r.actions n := by
  induction n generalizing r with
  | zero => exact List.prefix_rfl
  | succ n ih =>
    have hnext : r.step.next.options = r.options := r.options_step
    rw [actions_succ_eq_next, actions_succ_eq_next r]
    rcases step_refusing habort hignore with hsame | ⟨hnone, failure, herror⟩
    · rw [hsame, List.prefix_append_right_inj]
      exact ih (hnext ▸ habort) (hnext ▸ hignore)
    · have hdone : r.refusing.step.next.isTerminated = true := by
        rw [isTerminated_next_iff, herror]
        simp
      rw [hnone, actions_of_isTerminated hdone]
      exact List.nil_prefix

/-- A first step that does nothing and fails is all that is done. -/
theorem exists_halts_of_error (hnone : r.step.actions = [])
    (herror : ∃ failure, r.step.outcome = .error failure) (done : List Action) :
    ∃ early failure stopped, r.Halts early (.error failure) stopped ∧ early <+: done := by
  obtain ⟨failure, herror⟩ := herror
  refine ⟨[], failure, r.step.next, .failed ?_, List.nil_prefix⟩
  rw [← hnone, ← herror]

/-- Where steps are repeated to an end, so they are if missing kings are refused: to the same
end, or to an earlier one that is an error. -/
theorem Halts.refusing {done : List Action} {outcome : Except Failure Unit}
    {last : Referee σ κ} (h : r.Halts done outcome last) (habort : r.options.onMalformed = .abort)
    (hignore : r.options.missingKing = .ignore) :
    r.refusing.Halts done outcome last.refusing ∨
      ∃ early failure stopped,
        r.refusing.Halts early (.error failure) stopped ∧ early <+: done := by
  induction h with
  | ended hstep =>
    rcases step_refusing habort hignore with hsame | ⟨hnone, herror⟩
    · rw [hstep] at hsame
      exact .inl (.ended hsame)
    · exact .inr (exists_halts_of_error hnone herror _)
  | failed hstep =>
    rcases step_refusing habort hignore with hsame | ⟨hnone, herror⟩
    · rw [hstep] at hsame
      exact .inl (.failed hsame)
    · exact .inr (exists_halts_of_error hnone herror _)
  | @more r next last first done outcome hstep hrest ih =>
    have hnext : next.options = r.options := by
      have := r.options_step
      rwa [hstep] at this
    rcases step_refusing habort hignore with hsame | ⟨hnone, herror⟩
    · rw [hstep] at hsame
      rcases ih (hnext ▸ habort) (hnext ▸ hignore) with
        hhalts | ⟨early, failure, stopped, hhalts, hle⟩
      · exact .inl (.more hsame hhalts)
      · exact .inr ⟨_, failure, stopped, .more hsame hhalts,
          (List.prefix_append_right_inj first).2 hle⟩
    · exact .inr (exists_halts_of_error hnone herror _)

/-- **Where a run ends, so does the run that refuses missing kings, and what it does is where
the other began.** -/
theorem RunsTo.refusing {run : Run κ} (h : r.RunsTo run) (habort : r.options.onMalformed = .abort)
    (hignore : r.options.missingKing = .ignore) :
    ∃ strict, r.refusing.RunsTo strict ∧ strict.actions <+: run.actions := by
  cases h with
  | @closed done last h =>
    rcases h.refusing habort hignore with hsame | ⟨early, failure, stopped, hhalts, hle⟩
    · exact ⟨_, .closed hsame, List.prefix_rfl⟩
    · exact ⟨_, .failed hhalts, hle.trans (List.prefix_append done last.close.actions)⟩
  | failed h =>
    rcases h.refusing habort hignore with hsame | ⟨early, failure, stopped, hhalts, hle⟩
    · exact ⟨_, .failed hsame, List.prefix_rfl⟩
    · exact ⟨_, .failed hhalts, hle⟩

end Abort

/-- Two runs over a source that leave bad boards out, where one refuses missing kings. -/
theorem RunsTo.narrows {r s : Referee σ κ} {loose strict : Run κ} (h : r.RunsTo loose)
    (h' : s.RunsTo strict) (habreast : Abreast r s) (hphase : r.phase = .reading)
    (hsummary : r.summary = {} ∧ s.summary = {}) (hignore : r.options.missingKing = .ignore)
    (hrefuse : s.options.missingKing = .refuse) :
    Run.Narrows loose.actions strict.actions ∧
      (∃ n, readBy loose.actions = BoardSource.answers n r.source) ∧
      loose.outcome.map Summary.total = strict.outcome.map Summary.total := by
  obtain ⟨before, final, hstream, hloose⟩ :=
    h.exists_covers habreast.tolerant hphase hsummary.1
  obtain ⟨before', final', hstream', hstrict⟩ :=
    h'.exists_covers habreast.other (habreast.phase.trans hphase) hsummary.2
  rw [hignore] at hstream hloose
  rw [hrefuse, habreast.source] at hstream'
  rw [hrefuse] at hstrict
  obtain ⟨rfl, rfl⟩ := hstream.unique hstream'.congr
  refine ⟨⟨hstrict.read.trans hloose.read.symm, ?_, ?_⟩, ⟨before.length + 1, ?_⟩, ?_⟩
  · rw [hloose.read, (Answer.judgements_concat_of_isFinal hstream.ended before).1]
    exact hloose.sent
  · rw [hloose.read, ← Answer.judgements_refuse,
      (Answer.judgements_concat_of_isFinal hstream'.ended before).1]
    exact hstrict.sent
  · exact hloose.read.trans hstream.answers.symm
  · rw [hloose.outcome, hstrict.outcome, Answer.fate_congr_of_isFinal hstream.ended .refuse]
    exact Fate.map_total_ending _ _ (Answer.total_counts_congr .ignore .refuse before)

/-- After some steps of two referees that leave bad boards out, while no board waits. -/
theorem Abreast.narrows {r s : Referee σ κ} (habreast : Abreast r s) (hphase : r.phase = .reading)
    (hsummary : r.summary = {} ∧ s.summary = {}) (hignore : r.options.missingKing = .ignore)
    (hrefuse : s.options.missingKing = .refuse) (n : Nat)
    (hwaits : ∀ board, (r.afterSteps n).phase ≠ .evaluating board) :
    Run.Narrows (r.actions n) (s.actions n) ∧
      (r.afterSteps n).summary.total = (s.afterSteps n).summary.total := by
  obtain ⟨hafter, hread⟩ := habreast.afterSteps n
  obtain ⟨answers, hsettles, hreckons⟩ :=
    (habreast.tolerant.tallied hphase hsummary.1 n).settled
  obtain ⟨answers', hsettles', hreckons'⟩ :=
    (habreast.other.tallied (habreast.phase.trans hphase) hsummary.2 n).settled
  obtain rfl := hsettles.eq_of_ne hwaits
  obtain rfl := hsettles'.eq_of_ne (hafter.phase ▸ hwaits)
  rw [options_afterSteps, hignore] at hreckons
  rw [options_afterSteps, hrefuse, hread] at hreckons'
  refine ⟨⟨hread, hreckons.sent, ?_⟩, ?_⟩
  · rw [← Answer.judgements_refuse]
    exact hreckons'.sent
  · rw [hreckons.summary, hreckons'.summary]
    exact Answer.total_counts_congr .ignore .refuse _

/-- **Refusing missing kings only drops boards.**  Where bad boards are left out and the sink
never fails, a run that refuses missing kings ends exactly if the one that ignores them does.
Both read the same, and the reports of the first are those of the second at the boards with
exactly one king of each side, with new numbers; as many boards are judged or left out.  The
same holds after any number of steps while no board waits, also if the runs have no end.  Where
a bad board ends the run, the reports are a first part of those that are sent where missing
kings are ignored.  No board is judged in two ways.  After any number of steps of each of these
runs the sink holds the reports that were sent, and it is told the end exactly if the run
succeeds. -/
theorem refusing_drops_boards (source : σ) (sink : κ) (hsink : Willing sink) :
    let start := fun (onMalformed : OnMalformed) (missingKing : MissingKing) =>
      ({ source, sink, options := ⟨onMalformed, missingKing⟩ } : Referee σ κ)
    ((∃ run, (start .skip .ignore).RunsTo run) ↔ ∃ run, (start .skip .refuse).RunsTo run) ∧
    (∀ loose strict,
      (start .skip .ignore).RunsTo loose → (start .skip .refuse).RunsTo strict →
      Run.Narrows loose.actions strict.actions ∧
      (∃ n, readBy loose.actions = BoardSource.answers n source) ∧
      loose.outcome.map Summary.total = strict.outcome.map Summary.total) ∧
    (∀ n, (∀ board, ((start .skip .ignore).afterSteps n).phase ≠ .evaluating board) →
      Run.Narrows ((start .skip .ignore).actions n) ((start .skip .refuse).actions n) ∧
      ((start .skip .ignore).afterSteps n).summary.total =
        ((start .skip .refuse).afterSteps n).summary.total) ∧
    (∀ n, sentBy ((start .abort .refuse).actions n) <+:
      sentBy ((start .abort .ignore).actions n)) ∧
    (∀ loose, (start .abort .ignore).RunsTo loose →
      ∃ strict, (start .abort .refuse).RunsTo strict ∧ strict.sent <+: loose.sent) ∧
    (∀ (b : Board) (j j' : Judgement),
      b.evaluate .ignore = .ok j → b.evaluate .refuse = .ok j' → j' = j) ∧
    ∀ onMalformed missingKing,
      (∀ n, deliver sink (sentBy ((start onMalformed missingKing).actions n)) =
        (.ok (), ((start onMalformed missingKing).afterSteps n).sink)) ∧
      ∀ run, (start onMalformed missingKing).RunsTo run → run.Delivers sink := by
  intro start
  have habreast : Abreast (start .skip .ignore) (start .skip .refuse) :=
    ⟨⟨rfl, hsink⟩, ⟨rfl, hsink⟩, rfl, rfl⟩
  refine ⟨habreast.exists_runsTo_iff, ?_, ?_, ?_, ?_, ?_, ?_⟩
  · intro loose strict hloose hstrict
    exact hloose.narrows hstrict habreast rfl ⟨rfl, rfl⟩ rfl rfl
  · intro n hwaits
    exact habreast.narrows rfl ⟨rfl, rfl⟩ rfl rfl n hwaits
  · intro n
    exact (isPrefix_actions_refusing (r := start .abort .ignore) rfl rfl n).filterMap _
  · intro loose hloose
    obtain ⟨strict, hstrict, hle⟩ := hloose.refusing rfl rfl
    exact ⟨strict, hstrict, hle.filterMap _⟩
  · intro b j j' hloose hstrict
    exact Except.ok.inj ((Board.evaluate_refuse_eq_ok_iff.1 hstrict).2.symm.trans hloose)
  · intro onMalformed missingKing
    exact ⟨(start onMalformed missingKing).deliver_actions hsink, fun _ h => h.delivers hsink⟩

/-- A check on the only king of a board, between two boards with a king of each side, and then
two white kings: the second run drops that check alone and numbers the last one anew.  Where a
bad board ends the run, it sends the first report and no other. -/
theorem refusing_drops_boards_loneKing :
    let loneKing : Drawing := List.replicate 7 "........" ++ ["k......R"]
    let source : List Answer :=
      [.rows Drawing.twoKings, .rows loneKing, .rows Drawing.rookCheck,
        .rows (List.replicate 7 "........" ++ ["k.....KK"]),
        .rows (List.replicate 8 "........"), .rows Drawing.twoKings]
    let start := fun (onMalformed : OnMalformed) (missingKing : MissingKing) =>
      ({ source, sink := ({} : Output.ReportList), options := ⟨onMalformed, missingKing⟩ } :
        Referee (List Answer) Output.ReportList)
    let safe : Report := ⟨1, .noneInCheck, none⟩
    (start .skip .ignore).run.sent =
      [safe, ⟨2, .blackInCheck, some ⟨.rook, .white, ⟨7, 7⟩⟩⟩,
        ⟨3, .blackInCheck, some ⟨.rook, .white, ⟨7, 0⟩⟩⟩] ∧
    (start .skip .refuse).run.sent = [safe, ⟨2, .blackInCheck, some ⟨.rook, .white, ⟨7, 0⟩⟩⟩] ∧
    ((start .skip .refuse).afterSteps 4).sink.kept = #[safe] ∧
    (start .skip .ignore).run.outcome = .ok ⟨3, 1⟩ ∧
    (start .skip .refuse).run.outcome.map Summary.total = .ok 4 ∧
    sentBy ((start .skip .refuse).actions 4) = [safe] ∧
    ((start .skip .refuse).afterSteps 4).summary.total = 2 ∧
    (start .abort .refuse).run.sent <+: (start .abort .ignore).run.sent ∧
    (start .abort .ignore).run.sent.length = 3 := by
  intro loneKing source start safe
  have hsink : Willing ({} : Output.ReportList) := Output.ReportList.willing rfl rfl
  obtain ⟨-, hruns, hsteps, -, hprefix, -, hsinks⟩ :=
    refusing_drops_boards source ({} : Output.ReportList) hsink
  obtain ⟨hnarrows, -, htotal⟩ := hruns _ _ (runsTo_run _) (runsTo_run _)
  have hreads : ((start .skip .ignore).afterSteps 4).phase = .reading := by decide +kernel
  obtain ⟨hnarrowsFour, htotalFour⟩ := hsteps 4 fun board h => by
    simpa using hreads.symm.trans h
  have houtcome : (start .skip .ignore).run.outcome = .ok ⟨3, 1⟩ := by decide +kernel
  obtain ⟨strict, hstrict, hle⟩ := hprefix _ (runsTo_run _)
  have hsafe : sentBy ((start .skip .refuse).actions 4) = [safe] :=
    hnarrowsFour.kept.trans (by decide +kernel)
  refine ⟨hnarrows.sent.trans (by decide +kernel), hnarrows.kept.trans (by decide +kernel), ?_,
    houtcome, ?_, hsafe, ?_, ?_, by decide +kernel⟩
  · have htaken := (hsinks .skip .refuse).1 4
    rw [hsafe] at htaken
    generalize ((start .skip .refuse).afterSteps 4).sink = left at htaken ⊢
    obtain rfl := congrArg Prod.snd htaken
    rfl
  · rw [← htotal]
    exact congrArg (Except.map Summary.total) houtcome
  · rw [← htotalFour]
    decide +kernel
  · rw [hstrict.unique (runsTo_run _)] at hle
    exact hle

end Referee
end KingCheck
