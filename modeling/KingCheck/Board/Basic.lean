import KingCheck.Square
import KingCheck.Board.Error

/-!
# Boards

A board is a grid of cells with its kings counted once, when it is set up.  Two
invariants are part of the type: empty cells have their one stored form, and the count
belongs to the grid.  A board is therefore determined by its cells (`Board.ext`), and
`Board.ofCells` is the way to make one.
-/
namespace KingCheck

/-- The kings of one side: how many there are, and where the last of them stands in the
order of reading. -/
structure KingTally where
  count : Nat := 0
  last : Option Square := none
deriving DecidableEq

/-- Count one more king. -/
def KingTally.add (tally : KingTally) (s : Square) : KingTally := ⟨tally.count + 1, some s⟩

/-- The kings of both sides. -/
structure Kings where
  white : KingTally := {}
  black : KingTally := {}
deriving DecidableEq

namespace Kings

/-- The kings of one side. -/
def of (kings : Kings) : Side → KingTally
  | .white => kings.white
  | .black => kings.black

/-- Take note of one cell. -/
def note (kings : Kings) (s : Square) (c : Cell) : Kings :=
  if c.kind = .king then
    match c.side with
    | .white => { kings with white := kings.white.add s }
    | .black => { kings with black := kings.black.add s }
  else kings

end Kings

/-- The cells of a board, row by row. -/
abbrev Grid := Vector (Vector Cell boardSize) boardSize

namespace Grid

/-- The cell on a square. -/
def cell (grid : Grid) (s : Square) : Cell := grid[s.row][s.col]

/-- The grid with a given cell on each square. -/
def ofCells (f : Square → Cell) : Grid :=
  Vector.ofFn fun row => Vector.ofFn fun col => f ⟨row, col⟩

/-- The kings on a grid, counted in the order of reading. -/
def kings (grid : Grid) : Kings :=
  Square.all.foldl (fun kings s => kings.note s (grid.cell s)) {}

@[simp] theorem cell_ofCells (f : Square → Cell) (s : Square) : (ofCells f).cell s = f s := by
  simp [cell, ofCells]

/-- A grid is determined by its cells. -/
theorem ext_cell {g h : Grid} (eq : ∀ s, g.cell s = h.cell s) : g = h := by
  refine Vector.ext fun row hrow => Vector.ext fun col hcol => ?_
  exact eq ⟨⟨row, hrow⟩, ⟨col, hcol⟩⟩

end Grid

/-- A board that is set up. -/
structure Board where
  grid : Grid
  kings : Kings
  tidy_cell : ∀ s, (grid.cell s).tidy = grid.cell s
  kings_eq : kings = grid.kings
deriving DecidableEq

namespace Board

variable (b : Board)

/-- Set up a board square by square. -/
def ofCells (f : Square → Cell) : Board where
  grid := Grid.ofCells fun s => (f s).tidy
  kings := (Grid.ofCells fun s => (f s).tidy).kings
  tidy_cell := by simp
  kings_eq := rfl

/-- The cell on a square. -/
def cell (s : Square) : Cell := b.grid.cell s

/-- No piece is on the board; such a board ends a stream. -/
def isEmpty : Bool := Square.all.all fun s => (b.cell s).isEmpty

/-- The number of kings of a side. -/
def kingCount (side : Side) : Nat := (b.kings.of side).count

/-- The square of a side's only king; a side with none or with several has no such
square. -/
def kingSquare (side : Side) : Except BoardError Square :=
  match b.kings.of side with
  | ⟨1, some s⟩ => .ok s
  | tally => .error (.kingCount side tally.count)

@[simp] theorem cell_ofCells (f : Square → Cell) (s : Square) :
    (ofCells f).cell s = (f s).tidy := by
  simp [cell, ofCells]

@[simp] theorem tidy_cell_eq (s : Square) : (b.cell s).tidy = b.cell s := b.tidy_cell s

/-- A board is determined by its cells. -/
theorem ext_cell {a b : Board} (eq : ∀ s, a.cell s = b.cell s) : a = b := by
  have hg : a.grid = b.grid := Grid.ext_cell eq
  rcases a with ⟨ga, ka, ta, ha⟩
  rcases b with ⟨gb, kb, tb, hb⟩
  subst ha hb
  cases hg
  rfl

/-- Setting up a board's own cells gives the board back. -/
@[simp] theorem ofCells_cell : ofCells b.cell = b := ext_cell fun s => by simp

end Board
end KingCheck
