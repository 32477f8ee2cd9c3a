import KingCheck.Proofs.Referee.Settling

/-!
# The log as an audit trail

What the log tells of a run is what the run did, whatever the source and the sink do and wherever
they fail.  The games in the log are numbered as the reports that were sent, the boards that it says
were left out are those that are refused, at their places among the drawings, and its last entry
tells the counts, if the run succeeds.
-/
namespace KingCheck

open ReportSink (Receives)
open Run (drawnBy notedBy sentBy)

theorem Report.map_game_numbered (games : Nat) (judged : List Judgement) :
    (numbered games judged).map game = List.range' (games + 1) judged.length := by
  induction judged generalizing games with
  | nil => rfl
  | cons j judged ih => rw [numbered_cons, List.map_cons, ih, List.length_cons, List.range'_succ]

namespace Log

/-- The entries that some actions left. -/
def leftBy (actions : List Action) : List Entry := (notedBy actions).map Event.entry

/-- The numbers of the games that are told as judged. -/
def games (actions : List Action) : List Nat :=
  numbers .debug "Evaluated board" "game" (leftBy actions)

/-- The numbers of the boards that are told as left out. -/
def skips (actions : List Action) : List Nat :=
  numbers .warn "Skipping invalid board" "board" (leftBy actions)

theorem leftBy_append (first next : List Action) :
    leftBy (first ++ next) = leftBy first ++ leftBy next := by
  rw [leftBy, Run.notedBy_append, List.map_append]
  rfl

theorem games_append (first next : List Action) :
    games (first ++ next) = games first ++ games next := by
  rw [games, leftBy_append, numbers, List.filterMap_append]
  rfl

theorem skips_append (first next : List Action) :
    skips (first ++ next) = skips first ++ skips next := by
  rw [skips, leftBy_append, numbers, List.filterMap_append]
  rfl

/-- What the log of some actions tells of the drawings that they read. -/
structure Audits (options : Options) (drawn : List Drawing) (actions : List Action) : Prop where
  /-- Games are numbered from 1, one for each report that was sent. -/
  games : games actions = List.range' 1 (sentBy actions).length
  /-- The reports in the log are those that were sent. -/
  evaluated : (notedBy actions).filterMap Event.report? = sentBy actions
  /-- They are about the drawings that are judged, in order. -/
  judged : sentBy actions =
    Report.numbered 0 (Answer.judgements options.missingKing (drawn.map .rows))
  /-- Boards that are left out are told in order, each once. -/
  increasing : (skips actions).Pairwise (· < ·)
  /-- They are the refused ones, at their places, unless these end the run. -/
  skipped : ∀ i, i ∈ skips actions ↔ options.onMalformed = .skip ∧
    ∃ rows, (rows, i) ∈ drawn.zipIdx 1 ∧ rows.isRefused options.missingKing = true
  /-- Every drawing is judged or left out, unless it ends the stream or the run, as the last. -/
  covered : ∀ rows i, (rows, i) ∈ drawn.zipIdx 1 →
    ((Answer.rows rows).judgement? options.missingKing).isSome = true ∨ i ∈ skips actions ∨
    i = drawn.length ∧
      ((∃ board, Board.ofRows rows = .ok board ∧ board.isEmpty = true) ∨
        options.onMalformed = .abort ∧ rows.isRefused options.missingKing = true)

/-- What tells nothing of the drawings leaves the log right. -/
theorem Audits.append {options : Options} {drawn : List Drawing} {first next : List Action}
    (h : Audits options drawn first) (hsent : sentBy next = [])
    (hreports : (notedBy next).filterMap Event.report? = []) (hgames : Log.games next = [])
    (hskips : Log.skips next = []) : Audits options drawn (first ++ next) := by
  have hsentBy : sentBy (first ++ next) = sentBy first := by
    rw [Run.sentBy_append, hsent, List.append_nil]
  have hskipped : skips (first ++ next) = skips first := by
    rw [skips_append, hskips, List.append_nil]
  refine ⟨?_, ?_, hsentBy ▸ h.judged, hskipped ▸ h.increasing, hskipped ▸ h.skipped,
    hskipped ▸ h.covered⟩
  · rw [games_append, hgames, List.append_nil, hsentBy, h.games]
  · rw [Run.notedBy_append, List.filterMap_append, hreports, List.append_nil, hsentBy, h.evaluated]

end Log

/-- A run into `sink`, whose steps came to `stepped`, has left a log that tells what it did. -/
structure Run.Audited {κ : Type} [ReportSink κ] (options : Options) (sink : κ)
    (stepped : Except Failure Unit) (run : Run κ) : Prop where
  log : Log.Audits options (drawnBy run.actions) run.actions
  /-- The reports that were sent are those that the sink was given, and the end that it was told is
  the one it answers. -/
  reaches : run.Reaches sink stepped
  /-- A refused board that ends the run is the last, and the failure tells its place. -/
  aborted : ∀ rows reason, options.onMalformed = .abort →
    (drawnBy run.actions).getLast? = some rows →
    (Answer.rows rows).fate options.missingKing = .refused reason →
    run.outcome = .error (.invalidBoard (drawnBy run.actions).length reason)
  /-- The sink is told the end exactly if no step failed, and then once. -/
  finishes : run.finishes = if stepped.isOk then 1 else 0
  /-- Nothing is sent from then on. -/
  silent : sentBy (run.actions.dropWhile (· ≠ .finish)) = []
  /-- The last entry of a run that succeeds, and no other, tells the counts: the reports that were
  sent, and the boards that are told as left out. -/
  succeeded : ∀ summary, run.outcome = .ok summary →
    summary = ⟨run.sent.length, (Log.skips run.actions).length⟩ ∧
    ∃ before e, run.events.map Event.entry = before ++ [e] ∧ e.level = .info ∧
      e.message = "Game loop finished" ∧
      e.fields = [("games", .number run.sent.length),
        ("skipped", .number (Log.skips run.actions).length)] ∧
      ∀ other ∈ before, other.message ≠ "Game loop finished"
  /-- A run that fails has no such entry. -/
  failed : ∀ failure, run.outcome = .error failure →
    ∀ e ∈ run.events.map Event.entry, e.message ≠ "Game loop finished"

namespace Settled

variable {options : Options} {settled : List Drawing} {actions : List Action} {summary : Summary}
  {rows : Drawing}

theorem games_eq (h : Settled options settled actions summary) :
    Log.games actions = List.range' 1 (sentBy actions).length := by
  rw [Log.games, Log.leftBy, Event.numbers_evaluated, h.evaluated, h.reckons.sent,
    Report.map_game_numbered, Report.numbered, List.length_mapIdx]

theorem skips_eq (h : Settled options settled actions summary) :
    Log.skips actions = places (Drawing.isRefused options.missingKing) settled := by
  rw [Log.skips, Log.leftBy, Event.numbers_skipped, h.skipped]

/-- The counts are those of the reports and of the boards that are told as left out. -/
theorem summary_eq (h : Settled options settled actions summary) :
    summary = ⟨(sentBy actions).length, (Log.skips actions).length⟩ := by
  rw [h.skips_eq, length_places, h.reckons.sent, h.reckons.summary, Answer.counts, List.countP_map,
    Report.numbered, List.length_mapIdx]
  rfl

/-- Where a drawing is refused and settled, it is left out. -/
theorem skip_of_isRefused (h : Settled options settled actions summary) (hmem : rows ∈ settled)
    (hrefused : rows.isRefused options.missingKing = true) : options.onMalformed = .skip := by
  rcases h.fates rows hmem with hjudged | hskipped
  · rw [Drawing.isRefused, Answer.isRefused] at hrefused
    rw [Answer.judgement?] at hjudged
    cases hfate : (Answer.rows rows).fate options.missingKing <;> simp [hfate] at hrefused hjudged
  · exact hskipped.2

end Settled

namespace Leaves

variable {options : Options} {last : List Drawing} {rows : Drawing}

/-- A last drawing that ends the stream or the run is not judged. -/
theorem judgements_eq_nil (h : Leaves options .terminated last) :
    Answer.judgements options.missingKing (last.map .rows) = [] := by
  cases h with
  | nothing => rfl
  | cleared hrows hempty =>
    simp [Answer.judgements, Answer.judgement?, Answer.fate, hrows, hempty]
  | aborted hfate => simp [Answer.judgements, Answer.judgement?, hfate]

/-- It is the board without pieces, or it is refused and ends the run. -/
theorem of_mem (h : Leaves options .terminated last) (hmem : rows ∈ last) :
    last = [rows] ∧
      ((∃ board, Board.ofRows rows = .ok board ∧ board.isEmpty = true) ∧
          rows.isRefused options.missingKing = false ∨
        options.onMalformed = .abort ∧ rows.isRefused options.missingKing = true) := by
  cases h with
  | nothing => exact absurd hmem List.not_mem_nil
  | cleared hrows hempty =>
    obtain rfl := List.mem_singleton.1 hmem
    refine ⟨rfl, .inl ⟨⟨_, hrows, hempty⟩, ?_⟩⟩
    simp [Drawing.isRefused, Answer.isRefused, Answer.fate, hrows, hempty]
  | aborted hfate habort =>
    obtain rfl := List.mem_singleton.1 hmem
    exact ⟨rfl, .inr ⟨habort, by rw [Drawing.isRefused, Answer.isRefused, hfate]⟩⟩

end Leaves

/-- **Where all drawings but the last are settled, the log is right.** -/
theorem Settled.audits {options : Options} {settled last : List Drawing} {actions : List Action}
    {summary : Summary} (h : Settled options settled actions summary)
    (hlast : Leaves options .terminated last) :
    Log.Audits options (settled ++ last) actions where
  games := h.games_eq
  evaluated := h.evaluated
  judged := by
    rw [List.map_append, Answer.judgements_append, hlast.judgements_eq_nil, List.append_nil]
    exact h.reckons.sent
  increasing := by
    rw [h.skips_eq]
    exact pairwise_lt_places _ _
  skipped := by
    intro i
    rw [h.skips_eq, mem_places_iff, List.zipIdx_append]
    constructor
    · rintro ⟨rows, hmem, hrefused⟩
      exact ⟨h.skip_of_isRefused (List.fst_mem_of_mem_zipIdx hmem) hrefused, rows,
        List.mem_append_left _ hmem, hrefused⟩
    · rintro ⟨hskip, rows, hmem, hrefused⟩
      refine ⟨rows, (List.mem_append.1 hmem).resolve_right fun hrest => ?_, hrefused⟩
      rcases (hlast.of_mem (List.fst_mem_of_mem_zipIdx hrest)).2 with ⟨-, hkept⟩ | ⟨habort, -⟩
      · exact absurd (hrefused.symm.trans hkept) (by decide)
      · exact absurd (hskip.symm.trans habort) (by decide)
  covered := by
    intro rows i hmem
    rw [List.zipIdx_append] at hmem
    rcases List.mem_append.1 hmem with hbefore | hrest
    · rcases h.fates rows (List.fst_mem_of_mem_zipIdx hbefore) with hjudged | ⟨hrefused, -⟩
      · exact .inl hjudged
      · rw [h.skips_eq, mem_places_iff]
        exact .inr (.inl ⟨rows, hbefore, hrefused⟩)
    · obtain ⟨rfl, hends⟩ := hlast.of_mem (List.fst_mem_of_mem_zipIdx hrest)
      have hplace : i = (settled ++ [rows]).length := by
        simpa [Nat.add_comm] using hrest
      exact .inr (.inr ⟨hplace, hends.imp_left And.left⟩)

namespace Referee

variable {σ κ : Type} {r : Referee σ κ}

/-- The drawings that were read, but for one whose board waits. -/
def concluded (r : Referee σ κ) (actions : List Action) : List Drawing :=
  match r.phase with
  | .evaluating _ => (drawnBy actions).dropLast
  | _ => drawnBy actions

namespace Logged

variable {settled rest : List Drawing} {actions : List Action}

/-- **The log is right of all drawings but one whose board waits.** -/
theorem audits (h : Logged settled rest actions r) :
    Log.Audits r.options (r.concluded actions) actions := by
  obtain ⟨hdrawn, hleaves, haccounts, -⟩ := h
  have hconcluded : ∃ last, r.concluded actions = settled ++ last ∧
      Leaves r.options .terminated last := by
    rw [concluded]
    generalize r.phase = phase at hleaves ⊢
    cases hleaves with
    | @nothing phase hphase =>
      refine ⟨[], ?_, .nothing (by simp)⟩
      cases phase with
      | evaluating board => exact absurd rfl (hphase board)
      | reading | terminated => exact hdrawn
    | waiting => exact ⟨[], by simp [hdrawn], .nothing (by simp)⟩
    | cleared hrows hempty => exact ⟨_, hdrawn, .cleared hrows hempty⟩
    | aborted hfate habort => exact ⟨_, hdrawn, .aborted hfate habort⟩
  obtain ⟨last, heq, hlast⟩ := hconcluded
  rw [heq]
  exact haccounts.audits hlast

variable [Supply σ] [ReportSink κ]

/-- Where the last drawing is refused and ends the run, the step that did so tells its place. -/
theorem outcome_of_aborted (h : Logged settled rest actions r) (hgoing : r.phase ≠ .terminated)
    (hdone : r.step.next.phase = .terminated) (habort : r.options.onMalformed = .abort)
    {rows : Drawing} {reason : BoardError}
    (hlast : (drawnBy (actions ++ r.step.actions)).getLast? = some rows)
    (hfate : (Answer.rows rows).fate r.options.missingKing = .refused reason) :
    r.step.outcome =
      .error (.invalidBoard (drawnBy (actions ++ r.step.actions)).length reason) := by
  have hrefused : rows.isRefused r.options.missingKing = true := by
    rw [Drawing.isRefused, Answer.isRefused, hfate]
  -- Where refused boards end the run, none is settled.
  have hunsettled : ∀ {settled actions summary}, Settled r.options settled actions summary →
      settled.getLast? ≠ some rows := by
    intro settled actions summary haccounts hmem
    have hskip := haccounts.skip_of_isRefused (List.mem_of_getLast? hmem) hrefused
    exact absurd (hskip.symm.trans habort) (by decide)
  have hstep := r.transition_step
  generalize r.step = s at hstep hdone hlast ⊢
  cases hstep with
  | failed hphase | exhausted hphase =>
    obtain ⟨-, hdrawn, -⟩ := h.of_reading hphase
    rw [Run.drawnBy_append, hdrawn] at hlast
    exact absurd (by simpa [drawnBy, Run.readBy] using hlast) (hunsettled h.accounts)
  | @cleared source rows' board hphase _ hrows hempty =>
    obtain ⟨-, hdrawn, -⟩ := h.of_reading hphase
    rw [Run.drawnBy_append, hdrawn] at hlast
    obtain rfl : rows' = rows := by simpa [drawnBy, Run.readBy] using hlast
    simp [Answer.fate, hrows, hempty] at hfate
  | @aborted next reason' more hrefuses =>
    obtain ⟨rows', hfate', hdrawn, hboards, -⟩ := h.of_refuses hrefuses
    dsimp only at hlast ⊢
    rw [hdrawn] at hlast ⊢
    obtain rfl : rows' = rows := by simpa using hlast
    obtain rfl : reason' = reason := Fate.refused.inj (hfate'.symm.trans hfate)
    rw [hboards, List.length_append]
    rfl
  | unsent hphase hjudged =>
    obtain ⟨rows', hdrawn, -, haccounts⟩ := h.of_judged hphase hjudged
    exact absurd (hdrawn ▸ hlast) (hunsettled haccounts)
  | taken | skipped | sent => simp at hdone
  | idle hphase => exact absurd hphase hgoing

end Logged

section Run

variable [ReportSink κ]

/-- To close a run is to tell the sink, and to note the counts if the sink agrees. -/
theorem close_eq (r : Referee σ κ) :
    (r.close.outcome = .ok r.summary ∧ r.close.actions = [.finish, .note (.finished r.summary)]) ∨
      ∃ failure, r.close.outcome = .error failure ∧ r.close.actions = [.finish] := by
  rw [close]
  rcases ReportSink.finish r.sink with ⟨failure | _, sink⟩
  · exact .inr ⟨failure, rfl, rfl⟩
  · exact .inl ⟨rfl, rfl⟩

/-- Closing adds no games and no boards that are left out. -/
theorem close_tells (r : Referee σ κ) : drawnBy r.close.actions = [] ∧
    sentBy r.close.actions = [] ∧ (notedBy r.close.actions).filterMap Event.report? = [] ∧
    Log.games r.close.actions = [] ∧ Log.skips r.close.actions = [] := by
  rcases r.close_eq with ⟨-, hactions⟩ | ⟨_, -, hactions⟩
  · rw [hactions]
    exact ⟨rfl, rfl, rfl, rfl, rfl⟩
  · rw [hactions]
    exact ⟨rfl, rfl, rfl, rfl, rfl⟩

variable [Supply σ]

/-- What is true of steps that are repeated to the end. -/
structure Concludes (options : Options) (done : List Action) (outcome : Except Failure Unit)
    (last : Referee σ κ) : Prop where
  audits : Log.Audits options (drawnBy done) done
  aborted : ∀ rows reason, options.onMalformed = .abort → (drawnBy done).getLast? = some rows →
    (Answer.rows rows).fate options.missingKing = .refused reason →
    outcome = .error (.invalidBoard (drawnBy done).length reason)
  summary : last.summary = ⟨(sentBy done).length, (Log.skips done).length⟩
  unfinished : ∀ e ∈ Log.leftBy done, e.message ≠ "Game loop finished"

theorem Halts.concludes {done : List Action} {outcome : Except Failure Unit}
    {last : Referee σ κ} (h : r.Halts done outcome last) (hstart : Logged [] [] [] r)
    (hgoing : r.isTerminated = false) : Concludes r.options done outcome last := by
  obtain ⟨n, rfl, rfl, hbefore, houtcome⟩ := h.exists_steps
  obtain ⟨settled, rest, hn⟩ := hstart.afterSteps n
  obtain ⟨settled', rest', hlogged⟩ := hstart.afterSteps (n + 1)
  rw [List.nil_append] at hn hlogged
  have hdone : (r.afterSteps (n + 1)).phase = .terminated := by
    have hstop : (r.afterSteps n).step.outcome ≠ .ok true := by
      rw [houtcome]
      cases outcome <;> simp [Except.map]
    have hterminated := isTerminated_next_iff.2 hstop
    rw [← afterSteps_succ] at hterminated
    simpa [isTerminated] using hterminated
  have hconcluded : (r.afterSteps (n + 1)).concluded (r.actions (n + 1)) =
      drawnBy (r.actions (n + 1)) := by
    rw [concluded, hdone]
  refine ⟨?_, ?_, hlogged.accounts.summary_eq, ?_⟩
  · rw [← r.options_afterSteps (n + 1), ← hconcluded]
    exact hlogged.audits
  · intro rows reason habort hlast hfate
    have hphase : (r.afterSteps n).phase ≠ .terminated := by
      simpa [isTerminated] using isTerminated_afterSteps hgoing hbefore
    rw [← r.options_afterSteps n] at habort hfate
    rw [afterSteps_succ] at hdone
    rw [actions_succ] at hlast ⊢
    have hfailed := hn.outcome_of_aborted hphase hdone habort hlast hfate
    rw [houtcome] at hfailed
    cases outcome with
    | error failure => simpa [Except.map] using hfailed
    | ok => simp [Except.map] at hfailed
  · intro e he
    obtain ⟨event, hevent, rfl⟩ := List.mem_map.1 he
    rw [ne_eq, Event.message_entry_eq_iff]
    rintro ⟨summary, rfl⟩
    exact hlogged.accounts.unfinished summary hevent

/-- Nothing is sent once the sink is told the end. -/
theorem Halts.sentBy_dropWhile {done : List Action} {outcome : Except Failure Unit}
    {last : Referee σ κ} (h : r.Halts done outcome last) (rest : List Action) :
    sentBy ((done ++ rest).dropWhile (· ≠ .finish)) = sentBy (rest.dropWhile (· ≠ .finish)) := by
  have hnone : ∀ action ∈ done, decide (action ≠ .finish) = true := by
    intro action hmem
    have hcount := List.count_eq_zero.1 h.count_finish
    exact decide_eq_true fun heq => hcount (heq ▸ hmem)
  rw [List.dropWhile_append_of_pos hnone]

/-- Steps that failed are all that the run does. -/
theorem Concludes.audited_of_error {options : Options} {done : List Action} {failure : Failure}
    {last : Referee σ κ} (h : r.Halts done (.error failure) last)
    (hdone : Concludes options done (.error failure) last) :
    (⟨.error failure, done, last.sink⟩ : Run κ).Audited options r.sink (.error failure) where
  log := hdone.audits
  reaches := .failed h.receives rfl
  aborted := fun rows reason habort hlast hfate => by
    rw [Except.error.inj (hdone.aborted rows reason habort hlast hfate)]
  finishes := h.count_finish
  silent := by
    have hnothing := h.sentBy_dropWhile []
    rwa [List.append_nil] at hnothing
  succeeded := by simp
  failed := fun _ _ => hdone.unfinished

/-- Steps that did not fail are followed by telling the sink, which may fail. -/
theorem Concludes.audited_of_ok {options : Options} {done : List Action} {last : Referee σ κ}
    (h : r.Halts done (.ok ()) last) (hdone : Concludes options done (.ok ()) last) :
    (last.close.after done).Audited options r.sink (.ok ()) := by
  obtain ⟨hdrawn, hsent, hreports, hgames, hskips⟩ := last.close_tells
  have hdrawnBy : drawnBy (done ++ last.close.actions) = drawnBy done := by
    rw [Run.drawnBy_append, hdrawn, List.append_nil]
  have hsentBy : (last.close.after done).sent = sentBy done := by
    rw [Run.sent_after, sent_close, List.append_nil]
  have hskipped : Log.skips (done ++ last.close.actions) = Log.skips done := by
    rw [Log.skips_append, hskips, List.append_nil]
  have hlog : (last.close.after done).events.map Event.entry =
      Log.leftBy done ++ Log.leftBy last.close.actions := Log.leftBy_append _ _
  refine ⟨?_, h.reaches_close, ?_, ?_, ?_, ?_, ?_⟩
  · rw [Run.actions_after, hdrawnBy]
    exact hdone.audits.append hsent hreports hgames hskips
  · intro rows reason habort hlast hfate
    rw [Run.actions_after, hdrawnBy] at hlast
    exact absurd (hdone.aborted rows reason habort hlast hfate) (by simp)
  · rw [Run.finishes_after, h.count_finish]
    rcases last.close_eq with ⟨-, hactions⟩ | ⟨_, -, hactions⟩ <;>
      rw [Run.finishes, hactions] <;> rfl
  · rw [Run.actions_after, h.sentBy_dropWhile]
    rcases last.close_eq with ⟨-, hactions⟩ | ⟨_, -, hactions⟩ <;> rw [hactions] <;> rfl
  · intro summary hok
    rw [hsentBy, Run.actions_after, hskipped, hlog]
    rcases last.close_eq with ⟨houtcome, hactions⟩ | ⟨_, houtcome, -⟩
    · obtain rfl : last.summary = summary := Except.ok.inj (houtcome.symm.trans hok)
      refine ⟨hdone.summary, Log.leftBy done, (Event.finished last.summary).entry, ?_, rfl, rfl, ?_,
        hdone.unfinished⟩
      · rw [hactions]
        rfl
      · rw [hdone.summary]
        rfl
    · exact absurd (houtcome.symm.trans hok) (by simp)
  · intro failure herror
    rw [hlog]
    rcases last.close_eq with ⟨houtcome, -⟩ | ⟨_, -, hactions⟩
    · exact absurd (houtcome.symm.trans herror) (by simp)
    · rw [hactions]
      exact fun e he => hdone.unfinished e (by simpa [Log.leftBy, notedBy] using he)

/-- **The log is an audit trail.**  After any number of steps, and so in a run without an end too,
it tells games numbered from 1, one for each report that was sent, and the boards that were left
out, at their places among the drawings: all that are refused and do not end the run.  Every
drawing is judged or left out, but for one that waits, or ends the stream or the run, which is the
last.  The sink was given the reports that were sent, took each but perhaps the last, and is left as
they left it.  A run that ends repeats steps to their end.  The sink is told so exactly if no step
failed, once and after all reports, and its answer says whether the run succeeds.  The last entry of
a run that succeeds tells how many reports were sent and how many boards were told as left out; no
other entry is of its kind, and a run that fails has none. -/
theorem log_audits_run (source : σ) (sink : κ) (options : Options) :
    let start : Referee σ κ := { source, sink, options }
    (∀ n, Log.Audits options ((start.afterSteps n).concluded (start.actions n)) (start.actions n) ∧
      Receives sink (sentBy (start.actions n)) (start.stepped n) (start.afterSteps n).sink) ∧
    ∀ run, start.RunsTo run →
      ∃ done stepped last, start.Halts done stepped last ∧ done <+: run.actions ∧
        run.Audited options sink stepped := by
  intro start
  have hstart : Logged [] [] [] start := .start source sink options
  constructor
  · intro n
    obtain ⟨settled, rest, h⟩ := hstart.afterSteps n
    have haudits := h.audits
    rw [options_afterSteps] at haudits
    exact ⟨haudits, start.receives_afterSteps n⟩
  · intro run hrun
    cases hrun with
    | @closed done last h =>
      exact ⟨done, .ok (), last, h, List.prefix_append _ _,
        (h.concludes hstart rfl).audited_of_ok h⟩
    | @failed done failure last h =>
      exact ⟨done, .error failure, last, h, List.prefix_rfl,
        (h.concludes hstart rfl).audited_of_error h⟩

end Run

/-- One row alone and two boards, where the sink takes one report: two games are told, one is kept,
and the first drawing is told as left out.  With room for both, the counts are the last entry,
unless the sink fails when it is told the end. -/
theorem log_audits_run_roomForOne :
    let start (capacity : Nat) (finishFailure : Option String) :
        Referee (List Answer) Output.ReportList :=
      { source := [.rows ["k"], .rows Drawing.twoKings, .rows Drawing.twoKings],
        sink := { capacity := some capacity, finishFailure }, options := ⟨.skip, .ignore⟩ }
    let refused := (start 1 none).run
    let unclosed := (start 2 (some "shut")).run
    Log.games refused.actions = [1, 2] ∧ refused.sink.kept = #[⟨1, .noneInCheck, none⟩] ∧
    1 ∈ Log.skips refused.actions ∧ 2 ∉ Log.skips refused.actions ∧
    (∀ e ∈ refused.events.map Event.entry, e.message ≠ "Game loop finished") ∧
    (∃ e, ((start 2 none).run.events.map Event.entry).getLast? = some e ∧
      e.fields = [("games", .number 2), ("skipped", .number 1)]) ∧
    unclosed.sink.kept.size = 2 ∧ unclosed.outcome.map (fun _ => ()) = .error (.device "shut") := by
  intro start refused unclosed
  have haudited : ∀ capacity finishFailure, ∃ stepped,
      (start capacity finishFailure).run.Audited ⟨.skip, .ignore⟩
        (start capacity finishFailure).sink stepped := by
    intro capacity finishFailure
    obtain ⟨-, hruns⟩ := log_audits_run (start capacity finishFailure).source
      (start capacity finishFailure).sink (start capacity finishFailure).options
    obtain ⟨_, stepped, _, -, -, h⟩ := hruns _ (runsTo_run _)
    exact ⟨stepped, h⟩
  obtain ⟨_, hrefused⟩ := haudited 1 none
  obtain ⟨_, hsucceeded⟩ := haudited 2 none
  obtain ⟨_, hunclosed⟩ := haudited 2 (some "shut")
  let reports : List Report := [⟨1, .noneInCheck, none⟩, ⟨2, .noneInCheck, none⟩]
  have hsent : refused.sent = reports ∧ unclosed.sent = reports := by decide +kernel
  refine ⟨?_, ?_, ?_, ?_, ?_, ?_, ?_, ?_⟩
  · exact hrefused.log.games.trans (congrArg (fun sent => List.range' 1 sent.length) hsent.1)
  · rw [hrefused.reaches.sink_eq (Output.ReportList.finish_keeps _), hsent.1]
    decide +kernel
  · rw [hrefused.log.skipped]
    exact ⟨rfl, ["k"], by decide +kernel, by decide +kernel⟩
  · rw [hrefused.log.skipped]
    rintro ⟨-, rows, hmem, hfate⟩
    obtain rfl : rows = Drawing.twoKings := by
      have hdrawn : drawnBy refused.actions =
          [["k"], Drawing.twoKings, Drawing.twoKings] := by decide +kernel
      rw [hdrawn] at hmem
      simpa using hmem
    exact absurd hfate (by decide +kernel)
  · exact hrefused.failed (.device "") (by decide +kernel)
  · obtain ⟨-, before, e, hlog, -, -, hfields, -⟩ :=
      hsucceeded.succeeded ⟨2, 1⟩ (by decide +kernel)
    have hcounts : (start 2 none).run.sent.length = 2 ∧
        (Log.skips (start 2 none).run.actions).length = 1 := by decide +kernel
    refine ⟨e, by rw [hlog, List.getLast?_concat], ?_⟩
    rw [hfields, hcounts.1, hcounts.2]
  · rw [hunclosed.reaches.sink_eq (Output.ReportList.finish_keeps _), hsent.2]
    decide +kernel
  · cases hunclosed.reaches with
    | closed htaken hfinish =>
      have hanswer : unclosed.outcome.map (fun _ => ()) =
          (ReportSink.finish (ReportSink.deliver (start 2 (some "shut")).sink reports).2).1 := by
        rw [← hsent.2, htaken, hfinish]
      rw [hanswer]
      decide +kernel
    | failed =>
      have htold : unclosed.finishes = 1 := by decide +kernel
      exact absurd (htold.symm.trans hunclosed.finishes) Nat.one_ne_zero

end Referee
end KingCheck
