import KingCheck.Piece
import KingCheck.Text.Quoted

/-!
# What can be wrong with a board

A drawing that is no board has a defect, and a board that cannot be judged has a wrong
number of kings.  Each cause keeps the numbers its message tells.
-/
namespace KingCheck

/-- Why rows of text draw no board. -/
inductive Defect where
  | rowCount (count : Nat)
  | rowWidth (row width : Nat)
  | character (letter : Char) (row col : Nat)
deriving DecidableEq

/-- The wording of a defect. -/
def Defect.message : Defect → String
  | .rowCount count => "expected 8 rows, got " ++ count.repr
  | .rowWidth row width =>
    "row " ++ row.repr ++ " has " ++ width.repr ++ " characters, expected 8"
  | .character letter row col =>
    "unrecognized character " ++ Text.quoteChar letter ++ " at row " ++ row.repr ++
      ", column " ++ col.repr

/-- Why a board is refused. -/
inductive BoardError where
  | malformed (defect : Defect)
  | kingCount (side : Side) (count : Nat)
deriving DecidableEq

/-- The wording of a refusal. -/
def BoardError.message : BoardError → String
  | .malformed defect => "Malformed board: " ++ defect.message
  | .kingCount side count =>
    "Invalid king count: " ++ side.name ++ " has " ++ count.repr ++
      " kings, expected exactly one"

end KingCheck
