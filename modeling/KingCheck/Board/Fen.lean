import KingCheck.Board.Basic

/-!
# The compact form of a board

The piece placement field of Forsyth-Edwards notation: one field a row, the letters of
the pieces with the number of empty squares between them, and slashes between fields.
Row 0 of the board is the eighth rank, which the notation writes first.
-/
namespace KingCheck

/-- The number that stands for a gap; nothing stands for none. -/
def gapDigits (gap : Nat) : List Char := if gap = 0 then [] else Nat.toDigits 10 gap

/-- The field of a row whose first `gap` squares, before `cells`, were empty. -/
def fenField (gap : Nat) : List Cell → List Char
  | [] => gapDigits gap
  | c :: cells =>
    if c.isEmpty then fenField (gap + 1) cells
    else gapDigits gap ++ c.toChar :: fenField 0 cells

/-- The piece placement field of the board. -/
def Board.fen (b : Board) : String :=
  "/".intercalate (b.grid.toList.map fun row => String.ofList (fenField 0 row.toList))

end KingCheck
