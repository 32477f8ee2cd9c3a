import KingCheck.Board.Basic

/-!
# Attacks

Whether a square is attacked is decided by looking outward from it.  Along a line the
view ends at the first occupied square, which is all that a rook, bishop or queen
could strike from; knights strike from fixed jumps, and pawns from the diagonal behind
the square as they advance.  A king never counts as an attacker.  The order of looking
is fixed, so that one attacker is named even when there are several.
-/
namespace KingCheck

/-- A piece that attacks the square in question. -/
structure Attack where
  kind : Kind
  side : Side
  origin : Square
deriving DecidableEq

/-- The directions along rows and columns, in the order of looking. -/
def orthogonals : List Offset := [⟨0, 1⟩, ⟨0, -1⟩, ⟨1, 0⟩, ⟨-1, 0⟩]

/-- The directions along diagonals, in the order of looking. -/
def diagonals : List Offset := [⟨1, 1⟩, ⟨1, -1⟩, ⟨-1, 1⟩, ⟨-1, -1⟩]

/-- The jumps of a knight, in the order of looking. -/
def knightJumps : List Offset :=
  [⟨1, 2⟩, ⟨2, 1⟩, ⟨2, -1⟩, ⟨1, -2⟩, ⟨-1, -2⟩, ⟨-2, -1⟩, ⟨-2, 1⟩, ⟨-1, 2⟩]

/-- Where pawns of a side stand that attack a square, seen from it: one step behind,
the lower column first. -/
def pawnOrigins (attacker : Side) : List Offset :=
  [⟨-attacker.pawnAdvance, -1⟩, ⟨-attacker.pawnAdvance, 1⟩]

/-- The members of a list up to and including the first that satisfies `p`. -/
def upTo {α : Type} (p : α → Bool) : List α → List α
  | [] => []
  | a :: rest => if p a then [a] else a :: upTo p rest

namespace Board

variable (b : Board)

/-- The squares seen from `target` in one direction: outward to the first occupied one,
or to the edge. -/
def sightline (target : Square) (d : Offset) : List Square :=
  upTo (fun s => !(b.cell s).isEmpty) (target.ray d)

/-- The attack from a square, if the attacker has a piece of one of the kinds there. -/
def attackFrom? (attacker : Side) (kinds : List Kind) (s : Square) : Option Attack :=
  if (b.cell s).isOneOf attacker kinds then some ⟨(b.cell s).kind, attacker, s⟩ else none

/-- The first attack along lines in the given directions by one of the kinds that slide
there. -/
def lineAttack? (target : Square) (attacker : Side) (directions : List Offset)
    (sliders : List Kind) : Option Attack :=
  directions.findSome? fun d => (b.sightline target d).findSome? (b.attackFrom? attacker sliders)

/-- The first attack by a piece of one kind from squares at the given offsets. -/
def leapAttack? (target : Square) (attacker : Side) (offsets : List Offset) (kind : Kind) :
    Option Attack :=
  offsets.findSome? fun d => (target.offset d).bind (b.attackFrom? attacker [kind])

/-- The first piece of a side that attacks a square: rook lines, then bishop lines, then
knights, then pawns. -/
def attacker? (target : Square) (attacker : Side) : Option Attack :=
  b.lineAttack? target attacker orthogonals [.rook, .queen] <|>
  b.lineAttack? target attacker diagonals [.bishop, .queen] <|>
  b.leapAttack? target attacker knightJumps .knight <|>
  b.leapAttack? target attacker (pawnOrigins attacker) .pawn

/-- Some piece of a side attacks the square. -/
def isAttacked (target : Square) (attacker : Side) : Bool := (b.attacker? target attacker).isSome

/-- The piece that gives check to a side's only king, if one does. -/
def check? (side : Side) : Except BoardError (Option Attack) :=
  (b.kingSquare side).map fun king => b.attacker? king side.opponent

/-- A side's only king is attacked. -/
def inCheck (side : Side) : Except BoardError Bool := (b.check? side).map Option.isSome

/-- An attack names the square it was found on, the piece there and its owner. -/
theorem attackFrom?_eq_some_iff {attacker : Side} {kinds : List Kind} {s : Square} {a : Attack} :
    b.attackFrom? attacker kinds s = some a ↔
      (b.cell s).isOneOf attacker kinds = true ∧ a = ⟨(b.cell s).kind, attacker, s⟩ := by
  rw [attackFrom?]
  split
  next h => simp [h, eq_comm (a := a)]
  next h => simp [h]

end Board
end KingCheck
