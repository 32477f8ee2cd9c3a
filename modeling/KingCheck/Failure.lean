import KingCheck.Board.Error

/-!
# Failures of a run

A run can fail at a board, at a device, or while an object is written.
-/
namespace KingCheck

/-- Why a run stopped with an error. -/
inductive Failure where
  /-- The board with this number among those read is refused. -/
  | invalidBoard (board : Nat) (reason : BoardError)
  /-- A device failed, with its own words. -/
  | device (text : String)
  /-- A device failed in the middle of a JSON object. -/
  | json (text : String)
deriving DecidableEq

namespace Failure

/-- What lies behind a failure. -/
def cause : Failure → String
  | .invalidBoard _ reason => reason.message
  | .device text => text
  | .json text => text

/-- The wording of a failure: its kind, then its cause. -/
def message (f : Failure) : String :=
  match f with
  | .invalidBoard board _ => "Board #" ++ board.repr ++ ": " ++ f.cause
  | .device _ => "I/O error: " ++ f.cause
  | .json _ => "JSON error: " ++ f.cause

end Failure
end KingCheck
