/-!
# Squares and the lines through them

A square is a row and a column of the eight by eight board; row 0 is the first line
of a drawing.  An offset moves a square by a signed number of rows and columns, or off
the board, and a ray repeats one offset until it leaves the board.
-/
namespace KingCheck

/-- The number of rows and of columns. -/
abbrev boardSize : Nat := 8

/-- A square of the board. -/
structure Square where
  row : Fin boardSize
  col : Fin boardSize
deriving DecidableEq

/-- A signed number of rows and columns. -/
structure Offset where
  rows : Int
  cols : Int
deriving DecidableEq

namespace Square

/-- The square with these coordinates, if they are on the board. -/
def at? (row col : Nat) : Option Square :=
  if h : row < boardSize ∧ col < boardSize then some ⟨⟨row, h.1⟩, ⟨col, h.2⟩⟩ else none

/-- All squares, row by row. -/
def all : List Square :=
  (List.finRange boardSize).flatMap fun row => (List.finRange boardSize).map fun col => ⟨row, col⟩

/-- The square an offset away, or nothing past the edge. -/
def offset (s : Square) (d : Offset) : Option Square :=
  let row := s.row.val + d.rows
  let col := s.col.val + d.cols
  if 0 ≤ row ∧ 0 ≤ col then at? row.toNat col.toNat else none

/-- The first `n` squares met by repeating an offset from `s`, fewer if the edge comes
first. -/
def walk (d : Offset) : Nat → Square → List Square
  | 0, _ => []
  | n + 1, s =>
    match s.offset d with
    | none => []
    | some next => next :: walk d n next

/-- The squares from `s` outward in one direction; seven steps always suffice, since
an eighth would leave the board. -/
def ray (s : Square) (d : Offset) : List Square := walk d (boardSize - 1) s

/-- The coordinates in brackets, row first. -/
def text (s : Square) : String := "(" ++ s.row.val.repr ++ ", " ++ s.col.val.repr ++ ")"

theorem at?_eq_some_iff {row col : Nat} {s : Square} :
    at? row col = some s ↔ s.row.val = row ∧ s.col.val = col := by
  rcases s with ⟨⟨r, hr⟩, ⟨c, hc⟩⟩
  simp only [at?, Option.dite_none_right_eq_some, Option.some.injEq, mk.injEq, Fin.mk.injEq]
  constructor
  · rintro ⟨_, rfl, rfl⟩
    exact ⟨rfl, rfl⟩
  · rintro ⟨rfl, rfl⟩
    exact ⟨⟨hr, hc⟩, rfl, rfl⟩

/-- An offset moves each coordinate by its own number. -/
theorem offset_eq_some_iff {s t : Square} {d : Offset} :
    s.offset d = some t ↔
      (t.row.val : Int) = s.row.val + d.rows ∧ (t.col.val : Int) = s.col.val + d.cols := by
  simp only [offset]
  split
  · rw [at?_eq_some_iff]
    omega
  · constructor
    · intro h
      cases h
    · omega

theorem mem_all (s : Square) : s ∈ all :=
  List.mem_flatMap.2 ⟨s.row, List.mem_finRange _, List.mem_map.2 ⟨s.col, List.mem_finRange _, rfl⟩⟩

end Square
end KingCheck
