import KingCheck.Board.Basic
import KingCheck.Text.Lines

/-!
# Boards drawn as rows of text

A drawing is eight rows of eight letters.  Reading looks for the first defect, rows
before letters and top to bottom; a drawing without one is a board, and drawing that
board gives the rows back.
-/
namespace KingCheck

/-- Rows of text, which may or may not draw a board. -/
abbrev Drawing := List String

namespace Drawing

/-- The first letter of a row that draws no cell. -/
def letterDefect? (row : Nat) (letters : List Char) : Option Defect :=
  letters.zipIdx.findSome? fun (letter, col) =>
    if (Cell.ofChar? letter).isSome then none else some (.character letter row col)

/-- The first defect of one row: its width comes before its letters. -/
def rowDefect? (row : Nat) (letters : List Char) : Option Defect :=
  if letters.length = boardSize then letterDefect? row letters
  else some (.rowWidth row letters.length)

/-- The first defect of a drawing: the number of rows comes before all rows. -/
def defect? (rows : Drawing) : Option Defect :=
  if rows.length = boardSize then
    rows.zipIdx.findSome? fun (line, row) => rowDefect? row line.toList
  else some (.rowCount rows.length)

/-- The cell drawn for a square; where nothing is drawn, a vacant one. -/
def cell (rows : Drawing) (s : Square) : Cell :=
  let letter? := rows[s.row.val]?.bind fun line => line.toList[s.col.val]?
  (letter?.bind Cell.ofChar?).getD Cell.vacant

end Drawing

namespace Board

variable (b : Board)

/-- The board that rows of text draw. -/
def ofRows (rows : Drawing) : Except BoardError Board :=
  match rows.defect? with
  | some defect => .error (.malformed defect)
  | none => .ok (ofCells rows.cell)

/-- The board that the lines of a text draw. -/
def ofText (s : String) : Except BoardError Board := ofRows (Text.lines s)

/-- The letters of one row. -/
def letters (row : Fin boardSize) : List Char := b.grid[row].toList.map Cell.toChar

/-- The rows that draw the board. -/
def rows : Drawing := (List.finRange boardSize).map fun row => String.ofList (b.letters row)

/-- The drawing of the board. -/
def text : String := "\n".intercalate b.rows

theorem ofRows_eq_ok_iff {rows : Drawing} :
    ofRows rows = .ok b ↔ rows.defect? = none ∧ b = ofCells rows.cell := by
  rw [ofRows]
  cases rows.defect? with
  | none => simp [eq_comm]
  | some defect => simp

theorem ofRows_eq_error_iff {rows : Drawing} {e : BoardError} :
    ofRows rows = .error e ↔ ∃ defect, rows.defect? = some defect ∧ e = .malformed defect := by
  rw [ofRows]
  cases rows.defect? with
  | none => simp
  | some defect => simp [eq_comm]

end Board
end KingCheck
