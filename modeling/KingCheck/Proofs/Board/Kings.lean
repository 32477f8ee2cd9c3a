import KingCheck.Proofs.Board.KingSquares

/-!
# Boards with one king of each side

A side's king has a square exactly if it is the only one.  So the policy for missing kings
decides about boards without a king alone: where both sides have exactly one king, it does not
matter, and where it refuses a missing king, no other board is judged.
-/
namespace KingCheck

namespace Board

variable {b : Board} {side : Side} {j : Judgement}

/-- **A side's king has a square exactly if it is the only one.** -/
theorem exists_kingSquare_iff : (∃ s, b.kingSquare side = .ok s) ↔ b.kingCount side = 1 := by
  simp only [kingSquare_eq_ok_iff]
  rw [kingCount_eq, List.length_eq_one_iff]

/-- Where a missing king is refused, the attack on a king is judged if it is the only one. -/
theorem checkUnder_refuse_eq_ok_iff {found : Option Attack} :
    b.checkUnder .refuse side = .ok found ↔
      b.kingCount side = 1 ∧ b.checkUnder .ignore side = .ok found := by
  have hrefuse : b.checkUnder .refuse side = b.check? side := rfl
  rw [hrefuse, ← exists_kingSquare_iff, check?]
  cases hking : b.kingSquare side with
  | ok s => simp [checkUnder, check?, hking, Except.map]
  | error reason => simp [Except.map]

/-- **Where a missing king is refused, boards with one king of each side are judged, and as they
are where it is ignored.** -/
theorem evaluate_refuse_eq_ok_iff :
    b.evaluate .refuse = .ok j ↔
      (b.kingCount .white = 1 ∧ b.kingCount .black = 1) ∧ b.evaluate .ignore = .ok j := by
  simp only [evaluate_eq_ok_iff, checkUnder_refuse_eq_ok_iff, forall_and, Side.forall_iff]

end Board
end KingCheck
