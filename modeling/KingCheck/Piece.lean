/-!
# Sides, kinds and cells

What can stand on a square of the board, and the letter that draws it.  A drawing
uses thirteen letters: a dot for an empty square, a capital for a white piece and a
small letter for a black one.  Decoding is a search through the cells those letters
stand for, so that it inverts drawing by construction; `ofChar?_eq_some_iff` says so.
-/
namespace KingCheck

/-- The two players. -/
inductive Side where
  | white
  | black
deriving DecidableEq

namespace Side

/-- Both sides, white first. -/
def all : List Side := [.white, .black]

/-- The place of a side in `all`. -/
def index : Side → Nat
  | .white => 0
  | .black => 1

/-- The other player. -/
def opponent : Side → Side
  | .white => .black
  | .black => .white

/-- The number of rows a pawn of this side gains by a step: white starts on the last
rows and moves toward row 0. -/
def pawnAdvance : Side → Int
  | .white => -1
  | .black => 1

/-- The word for a side in messages and reports. -/
def name : Side → String
  | .white => "white"
  | .black => "black"

/-- The word for a side in the log's rendering of an attack. -/
def title : Side → String
  | .white => "White"
  | .black => "Black"

@[simp] theorem opponent_opponent (s : Side) : s.opponent.opponent = s := by
  cases s <;> rfl

@[simp] theorem opponent_ne (s : Side) : s.opponent ≠ s := by
  cases s <;> decide

theorem mem_all (s : Side) : s ∈ all := by
  cases s <;> decide

@[simp] theorem pawnAdvance_opponent (s : Side) : s.opponent.pawnAdvance = -s.pawnAdvance := by
  cases s <;> rfl

end Side

/-- What a cell holds. -/
inductive Kind where
  | empty
  | pawn
  | knight
  | bishop
  | rook
  | queen
  | king
deriving DecidableEq

namespace Kind

/-- The kinds that are pieces. -/
def pieces : List Kind := [.pawn, .knight, .bishop, .rook, .queen, .king]

/-- The letter that draws a kind, in the case black uses; a dot for an empty square. -/
def letter : Kind → Char
  | .empty => '.'
  | .pawn => 'p'
  | .knight => 'n'
  | .bishop => 'b'
  | .rook => 'r'
  | .queen => 'q'
  | .king => 'k'

/-- The word for a kind in reports. -/
def name : Kind → String
  | .empty => "empty"
  | .pawn => "pawn"
  | .knight => "knight"
  | .bishop => "bishop"
  | .rook => "rook"
  | .queen => "queen"
  | .king => "king"

/-- The word for a kind in the log's rendering of an attack. -/
def title : Kind → String
  | .empty => "Empty"
  | .pawn => "Pawn"
  | .knight => "Knight"
  | .bishop => "Bishop"
  | .rook => "Rook"
  | .queen => "Queen"
  | .king => "King"

end Kind

/-- What stands on one square.  The side of an empty cell owns nothing; use
`Cell.occupant` to ask whose piece it is. -/
structure Cell where
  kind : Kind
  side : Side
deriving DecidableEq

namespace Cell

variable (c : Cell)

/-- The cell that a dot draws; white fills the unused side. -/
def vacant : Cell := ⟨.empty, .white⟩

/-- Nothing stands here. -/
def isEmpty : Bool := c.kind == .empty

/-- The owner of the piece on this cell, if there is a piece. -/
def occupant : Option Side := if c.isEmpty then none else some c.side

/-- This cell holds a piece of `side` whose kind is among `kinds`. -/
def isOneOf (side : Side) (kinds : List Kind) : Bool :=
  c.occupant == some side && kinds.contains c.kind

/-- The letter that draws this cell. -/
def toChar : Char :=
  match c.occupant with
  | none => '.'
  | some .white => c.kind.letter.toUpper
  | some .black => c.kind.letter

/-- The cell that is stored for `c` on a board: every empty cell is `vacant`, so that
boards that look alike are equal. -/
def tidy : Cell := if c.isEmpty then vacant else c

/-- The cells that a letter draws. -/
def alphabet : List Cell :=
  vacant :: Side.all.flatMap fun side => Kind.pieces.map fun kind => ⟨kind, side⟩

/-- The cell that a letter draws, if it draws one. -/
def ofChar? (letter : Char) : Option Cell := alphabet.find? fun c => c.toChar == letter

@[simp] theorem tidy_tidy : c.tidy.tidy = c.tidy := by
  rcases c with ⟨kind, side⟩
  cases kind <;> rfl

@[simp] theorem isEmpty_tidy : c.tidy.isEmpty = c.isEmpty := by
  rcases c with ⟨kind, side⟩
  cases kind <;> rfl

/-- The drawn cells are exactly the stored ones. -/
theorem mem_alphabet {c : Cell} : c ∈ alphabet ↔ c.tidy = c := by
  rcases c with ⟨kind, side⟩
  cases kind <;> cases side <;> decide

/-- No two drawn cells share a letter. -/
theorem toChar_inj_of_mem {c d : Cell} (hc : c ∈ alphabet) (hd : d ∈ alphabet)
    (h : c.toChar = d.toChar) : c = d :=
  have inj : ∀ c ∈ alphabet, ∀ d ∈ alphabet, c.toChar = d.toChar → c = d := by decide
  inj c hc d hd h

/-- **A letter decodes to the one stored cell that it draws.** -/
theorem ofChar?_eq_some_iff {letter : Char} {c : Cell} :
    ofChar? letter = some c ↔ c.tidy = c ∧ c.toChar = letter := by
  rw [← mem_alphabet]
  constructor
  · intro h
    exact ⟨List.mem_of_find?_eq_some h, by simpa using List.find?_some h⟩
  · rintro ⟨hc, rfl⟩
    cases hf : ofChar? c.toChar with
    | none =>
      have := List.find?_eq_none.1 hf c hc
      simp at this
    | some d =>
      have hd : d.toChar = c.toChar := by simpa using List.find?_some hf
      rw [toChar_inj_of_mem (List.mem_of_find?_eq_some hf) hc hd]

end Cell
end KingCheck
