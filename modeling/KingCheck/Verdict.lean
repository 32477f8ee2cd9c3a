import KingCheck.Attack
import KingCheck.Policy

/-!
# Verdicts

A board is judged by looking at both kings.  The judgement keeps both findings; the
verdict names white first when both kings are attacked, and the attacker is the one
that goes with the verdict.
-/
namespace KingCheck

/-- The outcome of a game as it is reported. -/
inductive Verdict where
  | whiteInCheck
  | blackInCheck
  | noneInCheck
deriving DecidableEq

namespace Verdict

/-- The wording of a verdict in the report's line of text. -/
def message : Verdict → String
  | .whiteInCheck => "white king is in check"
  | .blackInCheck => "black king is in check"
  | .noneInCheck => "no king is in check"

/-- The word for a verdict in the report's object. -/
def name : Verdict → String
  | .whiteInCheck => "white_in_check"
  | .blackInCheck => "black_in_check"
  | .noneInCheck => "none_in_check"

/-- The word for a verdict in the log. -/
def title : Verdict → String
  | .whiteInCheck => "WhiteInCheck"
  | .blackInCheck => "BlackInCheck"
  | .noneInCheck => "NoneInCheck"

end Verdict

/-- The attacks found on the two kings. -/
structure Judgement where
  onWhite : Option Attack
  onBlack : Option Attack
deriving DecidableEq

namespace Judgement

variable (j : Judgement)

/-- White is named first. -/
def verdict : Verdict :=
  match j.onWhite, j.onBlack with
  | some _, _ => .whiteInCheck
  | none, some _ => .blackInCheck
  | none, none => .noneInCheck

/-- The piece that gives the reported check. -/
def attacker : Option Attack := j.onWhite.or j.onBlack

/-- Both kings are attacked, so that the verdict leaves one out. -/
def bothAttacked : Bool := j.onWhite.isSome && j.onBlack.isSome

end Judgement

namespace Board

variable (b : Board)

/-- The attack on a side's king under a policy: where a missing king is ignored, it is
not attacked. -/
def checkUnder (policy : MissingKing) (side : Side) : Except BoardError (Option Attack) :=
  match policy, b.check? side with
  | .ignore, .error (.kingCount _ 0) => .ok none
  | _, found => found

/-- Judge both kings, white first; the first wrong number of kings is the answer. -/
def evaluate (policy : MissingKing) : Except BoardError Judgement :=
  match b.checkUnder policy .white with
  | .error e => .error e
  | .ok onWhite => (b.checkUnder policy .black).map fun onBlack => ⟨onWhite, onBlack⟩

end Board
end KingCheck
