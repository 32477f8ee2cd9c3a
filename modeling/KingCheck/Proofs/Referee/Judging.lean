import KingCheck.Proofs.Board.KingSquares
import KingCheck.Proofs.Referee.Settling

/-!
# How a board is judged

The rules of judging as a list (`Board.JudgedAs`): a wrong number of kings comes before any check,
and white before black.  The rules exclude each other and one of them always applies, so that they
say what the answer is for every board (`evaluate_eq_iff_judgedAs`).  The log is warned of two
attacked kings when the answer leaves one of them out, and at no other time: not by a board that is
refused, though both kings may be attacked there, and not by what a referee does otherwise.
-/
namespace KingCheck

open Run (notedBy)

/-- What a judgement is told as. -/
def Judgement.told (j : Judgement) : Verdict × Option Attack := (j.verdict, j.attacker)

/-- What is told is what was found first. -/
theorem Judgement.told_eq (j : Judgement) : j.told =
    if (j.on .white).isSome then (.whiteInCheck, j.on .white)
    else if (j.on .black).isSome then (.blackInCheck, j.on .black) else (.noneInCheck, none) := by
  rcases j with ⟨_ | _, _ | _⟩ <;> rfl

/-- How often some events warn, in the log, that both kings are attacked. -/
def Event.warnings (events : List Event) : Nat :=
  events.countP fun e =>
    e.entry.level = .warn ∧ e.entry.message = "Both kings are attacked, reporting white"

theorem Event.warnings_append (first next : List Event) :
    warnings (first ++ next) = warnings first + warnings next := List.countP_append

namespace Board

variable (b : Board) (policy : MissingKing) (side : Side)

/-- The side has several kings, or none where that is refused. -/
def BadKings : Prop :=
  2 ≤ (b.kingSquares side).length ∨ b.kingSquares side = [] ∧ policy = .refuse

/-- A king of the side stands on an attacked square. -/
def Checked : Prop :=
  ∃ s, b.cell s = ⟨.king, side⟩ ∧ b.isAttacked s side.opponent = true

/-- The rules of judging. -/
inductive JudgedAs : Except BoardError (Verdict × Option Attack) → Prop where
  /-- White's kings are looked at first. -/
  | whiteKings (bad : b.BadKings policy .white) :
      JudgedAs (.error (.kingCount .white (b.kingSquares .white).length))
  /-- Black's are next, even if white is in check. -/
  | blackKings (fair : ¬ b.BadKings policy .white) (bad : b.BadKings policy .black) :
      JudgedAs (.error (.kingCount .black (b.kingSquares .black).length))
  /-- White is in check, whatever is with black. -/
  | whiteInCheck {s : Square} (fair : ∀ side, ¬ b.BadKings policy side)
      (king : b.cell s = ⟨.king, .white⟩) (attacked : b.isAttacked s .black = true) :
      JudgedAs (.ok (.whiteInCheck, b.attacker? s .black))
  /-- Black alone is in check. -/
  | blackInCheck {s : Square} (fair : ∀ side, ¬ b.BadKings policy side)
      (white : ¬ b.Checked .white) (king : b.cell s = ⟨.king, .black⟩)
      (attacked : b.isAttacked s .white = true) :
      JudgedAs (.ok (.blackInCheck, b.attacker? s .white))
  /-- Neither is. -/
  | noneInCheck (fair : ∀ side, ¬ b.BadKings policy side) (quiet : ∀ side, ¬ b.Checked side) :
      JudgedAs (.ok (.noneInCheck, none))

variable {b policy side} {s : Square} {found : Option Attack} {j : Judgement}
  {answer : Except BoardError (Verdict × Option Attack)}

/-! ### One side -/

theorem checkUnder_of_badKings (h : b.BadKings policy side) :
    b.checkUnder policy side = .error (.kingCount side (b.kingSquares side).length) := by
  rw [BadKings] at h
  rw [checkUnder_eq]
  rcases hsquares : b.kingSquares side with _ | ⟨s, _ | ⟨s', squares⟩⟩
  · cases policy with
    | ignore => simp [hsquares] at h
    | refuse => rfl
  · simp [hsquares] at h
  · cases policy <;> rfl

theorem exists_checkUnder_of_not_badKings (h : ¬ b.BadKings policy side) :
    ∃ found, b.checkUnder policy side = .ok found := by
  rw [BadKings] at h
  rw [checkUnder_eq]
  rcases hsquares : b.kingSquares side with _ | ⟨s, _ | ⟨s', squares⟩⟩
  · cases policy with
    | ignore => exact ⟨none, rfl⟩
    | refuse => simp [hsquares] at h
  · exact ⟨_, rfl⟩
  · simp [hsquares] at h

/-- What is found is the attack on the square where the king stands. -/
theorem eq_attacker?_of_king (h : b.checkUnder policy side = .ok found)
    (hking : b.cell s = ⟨.king, side⟩) : found = b.attacker? s side.opponent := by
  have hmem : s ∈ b.kingSquares side := mem_kingSquares.2 hking
  rcases checkUnder_eq_ok_iff.1 h with ⟨s', hsquares, rfl⟩ | ⟨hsquares, -, -⟩
  · rw [hsquares, List.mem_singleton] at hmem
    rw [hmem]
  · rw [hsquares] at hmem
    cases hmem

theorem isSome_iff_checked (h : b.checkUnder policy side = .ok found) :
    found.isSome = true ↔ b.Checked side := by
  constructor
  · intro hsome
    rcases checkUnder_eq_ok_iff.1 h with ⟨s, hsquares, rfl⟩ | ⟨-, -, rfl⟩
    · exact ⟨s, mem_kingSquares.1 (by simp [hsquares]), hsome⟩
    · cases hsome
  · intro hchecked
    obtain ⟨s, hking, hattacked⟩ := hchecked
    rwa [eq_attacker?_of_king h hking]

/-! ### Both sides -/

/-- A board is judged exactly if neither side has a wrong number of kings. -/
theorem exists_evaluate_iff :
    (∃ j, b.evaluate policy = .ok j) ↔ ∀ side, ¬ b.BadKings policy side := by
  constructor
  · intro h side hbad
    obtain ⟨j, hj⟩ := h
    have hside := evaluate_eq_ok_iff.1 hj side
    rw [checkUnder_of_badKings hbad] at hside
    cases hside
  · intro h
    obtain ⟨onWhite, hwhite⟩ := exists_checkUnder_of_not_badKings (h .white)
    obtain ⟨onBlack, hblack⟩ := exists_checkUnder_of_not_badKings (h .black)
    exact ⟨⟨onWhite, onBlack⟩, evaluate_eq_ok_iff.2 (Side.forall_iff.2 ⟨hwhite, hblack⟩)⟩

/-- A judgement finds a side in check exactly if it is. -/
theorem on_isSome_iff_checked (h : b.evaluate policy = .ok j) (side : Side) :
    (j.on side).isSome = true ↔ b.Checked side :=
  isSome_iff_checked (evaluate_eq_ok_iff.1 h side)

/-- What is told follows the rules. -/
theorem JudgedAs.evaluate_eq (h : b.JudgedAs policy answer) :
    (b.evaluate policy).map Judgement.told = answer := by
  cases h with
  | whiteKings bad =>
    rw [evaluate, checkUnder_of_badKings bad]
    rfl
  | blackKings fair bad =>
    obtain ⟨found, hfound⟩ := exists_checkUnder_of_not_badKings fair
    rw [evaluate, hfound, checkUnder_of_badKings bad]
    rfl
  | whiteInCheck fair king attacked =>
    obtain ⟨j, hj⟩ := exists_evaluate_iff.2 fair
    have hwhite := eq_attacker?_of_king (evaluate_eq_ok_iff.1 hj .white) king
    have hsome := (on_isSome_iff_checked hj .white).2 ⟨_, king, attacked⟩
    rw [hj, Except.map, Judgement.told_eq, if_pos hsome, hwhite]
    rfl
  | blackInCheck fair white king attacked =>
    obtain ⟨j, hj⟩ := exists_evaluate_iff.2 fair
    have hblack := eq_attacker?_of_king (evaluate_eq_ok_iff.1 hj .black) king
    have hsome := (on_isSome_iff_checked hj .black).2 ⟨_, king, attacked⟩
    have hnone := (on_isSome_iff_checked hj .white).not.2 white
    rw [hj, Except.map, Judgement.told_eq, if_neg hnone, if_pos hsome, hblack]
    rfl
  | noneInCheck fair quiet =>
    obtain ⟨j, hj⟩ := exists_evaluate_iff.2 fair
    have hnone : ∀ side, ¬ (j.on side).isSome = true :=
      fun side => (on_isSome_iff_checked hj side).not.2 (quiet side)
    rw [hj, Except.map, Judgement.told_eq, if_neg (hnone .white), if_neg (hnone .black)]

/-- Some rule applies. -/
theorem exists_judgedAs (b : Board) (policy : MissingKing) :
    ∃ answer, b.JudgedAs policy answer := by
  by_cases hwhite : b.BadKings policy .white
  · exact ⟨_, .whiteKings hwhite⟩
  by_cases hblack : b.BadKings policy .black
  · exact ⟨_, .blackKings hwhite hblack⟩
  have hfair : ∀ side, ¬ b.BadKings policy side := Side.forall_iff.2 ⟨hwhite, hblack⟩
  by_cases hwhite' : b.Checked .white
  · obtain ⟨s, hking, hattacked⟩ := hwhite'
    exact ⟨_, .whiteInCheck hfair hking hattacked⟩
  by_cases hblack' : b.Checked .black
  · obtain ⟨s, hking, hattacked⟩ := hblack'
    exact ⟨_, .blackInCheck hfair hwhite' hking hattacked⟩
  exact ⟨_, .noneInCheck hfair (Side.forall_iff.2 ⟨hwhite', hblack'⟩)⟩

/-- **A board is judged as the rules say.** -/
theorem evaluate_eq_iff_judgedAs :
    (b.evaluate policy).map Judgement.told = answer ↔ b.JudgedAs policy answer := by
  constructor
  · rintro rfl
    obtain ⟨answer, h⟩ := exists_judgedAs b policy
    rwa [h.evaluate_eq]
  · exact JudgedAs.evaluate_eq

/-! ### The warning -/

/-- Both findings are attacks exactly if both sides are in check. -/
theorem bothAttacked_iff_checked (h : b.evaluate policy = .ok j) :
    j.bothAttacked = true ↔ ∀ side, b.Checked side := by
  have hon : j.bothAttacked = ((j.on .white).isSome && (j.on .black).isSome) := rfl
  rw [hon, Bool.and_eq_true, on_isSome_iff_checked h, on_isSome_iff_checked h, Side.forall_iff]

/-- Judging a board warns once or not at all. -/
theorem warnings_judgingEvents (b : Board) (policy : MissingKing) :
    (∃ j, b.evaluate policy = .ok j) ∧ (∀ side, b.Checked side) ∧
        Event.warnings (judgingEvents b (b.evaluate policy)) = 1 ∨
      ¬ ((∃ j, b.evaluate policy = .ok j) ∧ ∀ side, b.Checked side) ∧
        Event.warnings (judgingEvents b (b.evaluate policy)) = 0 := by
  cases hj : b.evaluate policy with
  | error reason => exact .inr ⟨by simp, rfl⟩
  | ok j =>
    rw [← bothAttacked_iff_checked hj, judgingEvents]
    by_cases hboth : j.bothAttacked = true
    · exact .inl ⟨⟨j, rfl⟩, hboth, by rw [if_pos hboth]; rfl⟩
    · exact .inr ⟨fun h => hboth h.2, by rw [if_neg hboth]; rfl⟩

end Board

namespace Referee

variable {σ κ : Type} [Supply σ] [ReportSink κ] {r : Referee σ κ} {s : Step σ κ}

/-- Judging warns when it looks at the kings, and not in its report. -/
theorem warnings_judgingActions (board : Board) (j : Judgement) (report : Report) :
    Event.warnings (notedBy (judgingActions board j report)) =
      Event.warnings (judgingEvents board (.ok j)) := by
  rw [notedBy_judgingActions_eq, Event.warnings_append]
  rfl

/-- **A step warns as judging the board that waits does, and a step that judges none does not.** -/
theorem warnings_step (r : Referee σ κ) :
    Event.warnings (notedBy r.step.actions) =
      match r.phase with
      | .evaluating board =>
        Event.warnings (judgingEvents board (board.evaluate r.options.missingKing))
      | _ => 0 := by
  have h := r.transition_step
  generalize r.step = s at h
  cases h with
  | failed hphase | exhausted hphase | cleared hphase | taken hphase | idle hphase =>
    rw [hphase]
    rfl
  | aborted hrefused | skipped hrefused =>
    cases hrefused with
    | drawing hphase =>
      rw [hphase]
      rfl
    | kings hphase hjudged =>
      rw [hphase]
      simp only [hjudged]
      rfl
  | sent hphase hjudged | unsent hphase hjudged =>
    rw [hphase]
    simp only [hjudged]
    exact warnings_judgingActions _ _ _

end Referee

/-- **How a board is judged, and when the log is warned.**  The rules say what is answered.  There
is one warning if the answer is a judgement and both sides are in check, and none otherwise; and a
referee that judges the board warns as often. -/
theorem Board.evaluate_judged_and_warned {σ κ : Type} [Supply σ] [ReportSink κ] (b : Board)
    (policy : MissingKing) :
    (∀ answer, (b.evaluate policy).map Judgement.told = answer ↔ b.JudgedAs policy answer) ∧
    ((∃ j, b.evaluate policy = .ok j) ∧ (∀ side, b.Checked side) ∧
        Event.warnings (judgingEvents b (b.evaluate policy)) = 1 ∨
      ¬ ((∃ j, b.evaluate policy = .ok j) ∧ ∀ side, b.Checked side) ∧
        Event.warnings (judgingEvents b (b.evaluate policy)) = 0) ∧
    ∀ r : Referee σ κ, r.phase = .evaluating b → r.options.missingKing = policy →
      Event.warnings (notedBy r.step.actions) =
        Event.warnings (judgingEvents b (b.evaluate policy)) := by
  refine ⟨fun _ => evaluate_eq_iff_judgedAs, warnings_judgingEvents b policy, ?_⟩
  intro r hphase hpolicy
  rw [r.warnings_step, hphase]
  simp only [hpolicy]

/-- Both kings are attacked by rooks, and on some boards there is one more black king. -/
def Drawing.tieBreak (corner : Char) : Drawing :=
  ["R...k...", "........", "........", "........", "....r...", "........", "........",
    String.ofList ("....K..".toList ++ [corner])]

/-- White's check is told, and black's is warned of; with one more black king neither is. -/
theorem Board.evaluate_judged_and_warned_tieBreak :
    let one := ofCells (Drawing.tieBreak '.').cell
    let two := ofCells (Drawing.tieBreak 'k').cell
    let r : Referee (List Answer) Output.ReportList :=
      { source := [], sink := {}, phase := .evaluating one, boardsRead := 1 }
    one.JudgedAs .ignore (.ok (.whiteInCheck, some ⟨.rook, .black, ⟨4, 4⟩⟩)) ∧
    (∀ side, one.Checked side) ∧ Event.warnings (notedBy r.step.actions) = 1 ∧
    two.JudgedAs .ignore (.error (.kingCount .black 2)) := by
  intro one two r
  have hjudged : one.evaluate .ignore =
      .ok ⟨some ⟨.rook, .black, ⟨4, 4⟩⟩, some ⟨.rook, .white, ⟨0, 0⟩⟩⟩ := by decide +kernel
  have hrefused : two.evaluate .ignore = .error (.kingCount .black 2) := by decide +kernel
  have hone : Event.warnings (judgingEvents one (one.evaluate .ignore)) = 1 := by
    rw [hjudged]
    rfl
  obtain ⟨hrules, hwarned, hstep⟩ :=
    evaluate_judged_and_warned (σ := List Answer) (κ := Output.ReportList) one .ignore
  obtain ⟨hrefuses, -, -⟩ :=
    evaluate_judged_and_warned (σ := List Answer) (κ := Output.ReportList) two .ignore
  have hboth := hwarned.resolve_right fun h => by simp [hone] at h
  refine ⟨(hrules _).1 (by rw [hjudged]; rfl), hboth.2.1, ?_,
    (hrefuses _).1 (by rw [hrefused]; rfl)⟩
  rw [hstep r rfl rfl, hone]

end KingCheck
