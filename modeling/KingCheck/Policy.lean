/-!
# Policies

What the referee does with a board that cannot be judged, and whether a board without a
king can be.
-/
namespace KingCheck

/-- What becomes of a board that draws nothing or has a wrong number of kings. -/
inductive OnMalformed where
  /-- It ends the run with an error. -/
  | abort
  /-- It is noted in the log and left out. -/
  | skip
deriving DecidableEq

/-- What becomes of a side that has no king. -/
inductive MissingKing where
  /-- A king that is not there is not in check. -/
  | ignore
  /-- The board has a wrong number of kings. -/
  | refuse
deriving DecidableEq

/-- The policies of a run. -/
structure Options where
  onMalformed : OnMalformed := .abort
  missingKing : MissingKing := .ignore
deriving DecidableEq

end KingCheck
