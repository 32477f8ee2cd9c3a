import KingCheck.Verdict
import Mathlib.Data.List.Nodup

/-!
# The squares of kings

A board counts its kings while it is set up and remembers the last of each side.  Both are read
off the list of the squares where kings of the side stand: its length and its last member
(`kings_of_eq`).  So a side's king has a square exactly if the list has one member, and what is
asked of that king is a case distinction on the list.
-/
namespace KingCheck

theorem Side.forall_iff {p : Side → Prop} : (∀ side, p side) ↔ p .white ∧ p .black := by
  constructor
  · intro h
    exact ⟨h .white, h .black⟩
  · rintro ⟨hwhite, hblack⟩ side
    cases side with
    | white => exact hwhite
    | black => exact hblack

theorem Square.nodup_all : Square.all.Nodup := by decide +kernel

namespace Kings

/-- A cell adds to the tally of a side exactly if the side's king stands there. -/
theorem of_note (kings : Kings) (s : Square) (c : Cell) (side : Side) :
    (kings.note s c).of side =
      if c = ⟨.king, side⟩ then (kings.of side).add s else kings.of side := by
  rcases c with ⟨kind, owner⟩
  by_cases hking : kind = .king
  · subst hking
    cases owner <;> cases side <;> rfl
  · rw [note, if_neg hking, if_neg]
    intro heq
    exact hking (congrArg Cell.kind heq)

/-- Some cells add to the tally of a side the squares among theirs where its king stands. -/
theorem of_foldl_note (cell : Square → Cell) (side : Side) (squares : List Square) (kings : Kings) :
    (squares.foldl (fun kings s => kings.note s (cell s)) kings).of side =
      (squares.filter fun s => cell s = ⟨.king, side⟩).foldl KingTally.add (kings.of side) := by
  induction squares generalizing kings with
  | nil => rfl
  | cons s squares ih =>
    rw [List.foldl_cons, ih, of_note, List.filter_cons]
    by_cases hking : cell s = ⟨.king, side⟩
    · simp [hking]
    · simp [hking]

end Kings

/-- Squares that are added one by one are counted, and the last is remembered. -/
theorem KingTally.foldl_add (squares : List Square) (tally : KingTally) :
    squares.foldl KingTally.add tally =
      ⟨tally.count + squares.length, squares.getLast?.or tally.last⟩ := by
  induction squares generalizing tally with
  | nil => rfl
  | cons s squares ih =>
    rw [List.foldl_cons, ih, List.getLast?_cons]
    have hcount : tally.count + 1 + squares.length = tally.count + (squares.length + 1) := by omega
    cases squares.getLast? <;> simp [KingTally.add, hcount]

namespace Board

variable (b : Board) (side : Side)

/-- The squares where kings of a side stand, in the order of reading. -/
def kingSquares : List Square := Square.all.filter fun s => b.cell s = ⟨.king, side⟩

/-- The side's only king is attacked by the other side. -/
def KingAttacked : Prop := ∃ s, b.kingSquare side = .ok s ∧ b.isAttacked s side.opponent = true

variable {b side} {s : Square} {policy : MissingKing} {found : Option Attack} {j : Judgement}

theorem mem_kingSquares : s ∈ b.kingSquares side ↔ b.cell s = ⟨.king, side⟩ := by
  simp [kingSquares, Square.mem_all]

theorem nodup_kingSquares : (b.kingSquares side).Nodup := Square.nodup_all.filter _

/-- **The tally of a side's kings is the number of their squares and the last of these.** -/
theorem kings_of_eq :
    b.kings.of side = ⟨(b.kingSquares side).length, (b.kingSquares side).getLast?⟩ := by
  have hnone : ({} : Kings).of side = {} := by cases side <;> rfl
  rw [b.kings_eq, Grid.kings, Kings.of_foldl_note, KingTally.foldl_add, hnone, Nat.zero_add,
    Option.or_none]
  rfl

theorem kingCount_eq : b.kingCount side = (b.kingSquares side).length := by
  rw [kingCount, kings_of_eq]

/-- A side's king has a square exactly if no other square has one too. -/
theorem kingSquare_eq : b.kingSquare side =
    match b.kingSquares side with
    | [s] => .ok s
    | squares => .error (.kingCount side squares.length) := by
  rw [kingSquare, kings_of_eq]
  rcases b.kingSquares side with _ | ⟨s, _ | ⟨s', squares⟩⟩ <;> simp

theorem kingSquare_eq_ok_iff : b.kingSquare side = .ok s ↔ b.kingSquares side = [s] := by
  rw [kingSquare_eq]
  rcases b.kingSquares side with _ | ⟨s', _ | ⟨s'', squares⟩⟩ <;> simp

/-- Where a side's king has no square, the number of its kings is told. -/
theorem kingSquare_eq_error_iff {reason : BoardError} :
    b.kingSquare side = .error reason ↔
      b.kingCount side ≠ 1 ∧ reason = .kingCount side (b.kingCount side) := by
  rw [kingSquare_eq, kingCount_eq]
  rcases b.kingSquares side with _ | ⟨s, _ | ⟨s', squares⟩⟩ <;> simp [eq_comm]

/-- The only square where the side's king stands. -/
theorem kingSquares_eq_singleton_iff :
    b.kingSquares side = [s] ↔ b.kingCount side = 1 ∧ b.cell s = ⟨.king, side⟩ := by
  rw [kingCount_eq, ← mem_kingSquares, List.length_eq_one_iff]
  constructor
  · intro h
    exact ⟨⟨s, h⟩, by simp [h]⟩
  · intro h
    obtain ⟨⟨s', hsquares⟩, hs⟩ := h
    rw [hsquares, List.mem_singleton] at hs
    rw [hsquares, hs]

/-- **The kings that a board remembers are those that stand on it.**  The count of a side is the
number of squares where its king stands.  The side's king has a square exactly if this number is
one, and then it is that square; otherwise the error tells the side and the number.  Boards are
equal, with what they remember, exactly if their cells are. -/
theorem remembers_kings (b b' : Board) :
    (∀ side, b.kingCount side = Square.all.countP (fun s => b.cell s = ⟨.king, side⟩) ∧
      (∀ s, b.kingSquare side = .ok s ↔ b.kingCount side = 1 ∧ b.cell s = ⟨.king, side⟩) ∧
      ∀ reason, b.kingSquare side = .error reason ↔
        b.kingCount side ≠ 1 ∧ reason = .kingCount side (b.kingCount side)) ∧
    ((b == b') = true ↔ ∀ s, b.cell s = b'.cell s) := by
  refine ⟨fun side => ⟨?_, ?_, fun _ => kingSquare_eq_error_iff⟩, ?_⟩
  · rw [kingCount_eq, kingSquares, ← List.countP_eq_length_filter]
  · intro s
    rw [kingSquare_eq_ok_iff, kingSquares_eq_singleton_iff]
  · rw [beq_iff_eq]
    constructor
    · rintro rfl s
      rfl
    · exact ext_cell

/-- What is found of a side's king: with one king it is the attack on it, and a side without a
king is not attacked where that is ignored. -/
theorem checkUnder_eq : b.checkUnder policy side =
    match b.kingSquares side, policy with
    | [s], _ => .ok (b.attacker? s side.opponent)
    | [], .ignore => .ok none
    | squares, _ => .error (.kingCount side squares.length) := by
  rw [checkUnder.eq_def, check?, kingSquare_eq]
  rcases b.kingSquares side with _ | ⟨s, _ | ⟨s', squares⟩⟩ <;> cases policy <;> rfl

theorem checkUnder_eq_ok_iff : b.checkUnder policy side = .ok found ↔
    (∃ s, b.kingSquares side = [s] ∧ b.attacker? s side.opponent = found) ∨
      b.kingSquares side = [] ∧ policy = .ignore ∧ found = none := by
  rw [checkUnder_eq]
  rcases b.kingSquares side with _ | ⟨s, _ | ⟨s', squares⟩⟩ <;> cases policy <;> simp [eq_comm]

/-- A king is found to be attacked exactly if it is. -/
theorem isSome_iff_kingAttacked (h : b.checkUnder policy side = .ok found) :
    found.isSome = true ↔ b.KingAttacked side := by
  simp only [KingAttacked, kingSquare_eq_ok_iff]
  rcases checkUnder_eq_ok_iff.1 h with ⟨s, hsquares, rfl⟩ | ⟨hsquares, -, rfl⟩
  · simp [hsquares, isAttacked]
  · simp [hsquares]

end Board

/-- What a judgement says of one side's king. -/
def Judgement.on (j : Judgement) : Side → Option Attack
  | .white => j.onWhite
  | .black => j.onBlack

namespace Board

variable {b : Board} {side : Side} {policy : MissingKing} {j : Judgement}

/-- **A board is judged exactly if both kings can be looked at, and then as they are found.** -/
theorem evaluate_eq_ok_iff :
    b.evaluate policy = .ok j ↔ ∀ side, b.checkUnder policy side = .ok (j.on side) := by
  rw [Side.forall_iff, evaluate]
  cases hwhite : b.checkUnder policy .white with
  | error reason => simp
  | ok onWhite =>
    cases hblack : b.checkUnder policy .black with
    | error reason => simp [Except.map]
    | ok onBlack =>
      rcases j with ⟨w, k⟩
      simp [Except.map, Judgement.on]

/-- A judgement finds a king attacked exactly if it is. -/
theorem on_isSome_iff (h : b.evaluate policy = .ok j) (side : Side) :
    (j.on side).isSome = true ↔ b.KingAttacked side :=
  isSome_iff_kingAttacked (evaluate_eq_ok_iff.1 h side)

end Board
end KingCheck
