import KingCheck.Proofs.Attack.Sightline

/-!
# How pieces attack

The program asks who attacks a square by looking outward from it.  The rules of the game
say it the other way round: a piece attacks the squares that it could move to.
`Board.Strikes` is that relation, by coordinates and without any search.
-/
namespace KingCheck

/-- `j` lies strictly between `i` and `k`, whichever of them is greater. -/
def Inside (i j k : Nat) : Prop := (i < j ∧ j < k) ∨ (k < j ∧ j < i)

namespace Square

variable (s m t : Square)

/-- How many rows two squares are apart. -/
def rowGap : Nat := ((s.row.val : Int) - t.row.val).natAbs

/-- How many columns two squares are apart. -/
def colGap : Nat := ((s.col.val : Int) - t.col.val).natAbs

/-- Some row or column holds both squares. -/
def Straight : Prop := s.row.val = t.row.val ∨ s.col.val = t.col.val

/-- Some diagonal holds both squares: along one kind of diagonal the difference of row and
column stays the same, along the other kind their sum. -/
def Diagonal : Prop :=
  s.row.val + t.col.val = t.row.val + s.col.val ∨ s.row.val + s.col.val = t.row.val + t.col.val

/-- The distances of a knight's jump. -/
def KnightMove : Prop :=
  (s.rowGap t = 1 ∧ s.colGap t = 2) ∨ (s.rowGap t = 2 ∧ s.colGap t = 1)

/-- `m` lies strictly between `s` and `t` on the row, column or diagonal of both. -/
def Between : Prop :=
  (s.row.val = t.row.val ∧ m.row.val = t.row.val ∧ Inside s.col.val m.col.val t.col.val) ∨
  (s.col.val = t.col.val ∧ m.col.val = t.col.val ∧ Inside s.row.val m.row.val t.row.val) ∨
  (s.Diagonal t ∧ m.Diagonal t ∧ Inside s.row.val m.row.val t.row.val ∧
    Inside s.col.val m.col.val t.col.val)

end Square

namespace Board

variable (b : Board) (s t : Square)

/-- Nothing stands strictly between the two squares. -/
def Clear : Prop := ∀ m, s.Between m t → (b.cell m).isEmpty = true

/-- The piece on `s` attacks `t`, by the rule for its kind.  There is no rule for kings. -/
inductive Strikes : Prop where
  /-- Rooks and queens attack along open rows and columns. -/
  | straight (piece : (b.cell s).kind = .rook ∨ (b.cell s).kind = .queen)
      (line : s.Straight t) (clear : b.Clear s t)
  /-- Bishops and queens attack along open diagonals. -/
  | diagonal (piece : (b.cell s).kind = .bishop ∨ (b.cell s).kind = .queen)
      (line : s.Diagonal t) (clear : b.Clear s t)
  /-- Knights jump. -/
  | jump (piece : (b.cell s).kind = .knight) (move : s.KnightMove t)
  /-- White pawns attack the two diagonal neighbours in the row before theirs. -/
  | whitePawn (piece : b.cell s = ⟨.pawn, .white⟩) (row : s.row.val = t.row.val + 1)
      (col : s.colGap t = 1)
  /-- Black pawns attack the two diagonal neighbours in the row after theirs. -/
  | blackPawn (piece : b.cell s = ⟨.pawn, .black⟩) (row : s.row.val + 1 = t.row.val)
      (col : s.colGap t = 1)

end Board

/-! ## Directions as coordinates -/

namespace Square

variable {s m t : Square} {d : Offset} {k : Nat}

theorem ne_iff : s ≠ t ↔ s.row.val ≠ t.row.val ∨ s.col.val ≠ t.col.val := by
  rcases s with ⟨⟨r, hr⟩, ⟨c, hc⟩⟩
  rcases t with ⟨⟨r', hr'⟩, ⟨c', hc'⟩⟩
  simp only [ne_eq, mk.injEq, Fin.mk.injEq]
  omega

/-- The squares between the two ends of a walk are the places on its way. -/
theorem between_iff_exists_times (hd : d ∈ orthogonals ++ diagonals)
    (hs : t.offset (d.times k) = some s) :
    s.Between m t ↔ ∃ j, 0 < j ∧ j < k ∧ t.offset (d.times j) = some m := by
  simp only [offset_eq_some_iff, Offset.rows_times, Offset.cols_times] at hs ⊢
  constructor
  · intro h
    simp only [Between, Diagonal, Inside] at h
    simp only [orthogonals, diagonals, List.cons_append, List.nil_append, List.mem_cons,
      List.not_mem_nil, or_false] at hd
    have hrow : t.rowGap m = ((t.row.val : Int) - m.row.val).natAbs := rfl
    have hcol : t.colGap m = ((t.col.val : Int) - m.col.val).natAbs := rfl
    refine ⟨max (t.rowGap m) (t.colGap m), ?_⟩
    rcases hd with rfl | rfl | rfl | rfl | rfl | rfl | rfl | rfl <;> dsimp only at hs ⊢ <;>
      rcases h with h | h | h <;> omega
  · intro h
    obtain ⟨j, hj, hlt, hm⟩ := h
    simp only [Between, Diagonal, Inside]
    simp only [orthogonals, diagonals, List.cons_append, List.nil_append, List.mem_cons,
      List.not_mem_nil, or_false] at hd
    rcases hd with rfl | rfl | rfl | rfl | rfl | rfl | rfl | rfl <;> dsimp only at hs hm <;> omega

/-- Walking along rows and columns reaches the squares in line. -/
theorem exists_orthogonal_iff :
    (∃ d ∈ orthogonals, ∃ k, 0 < k ∧ t.offset (d.times k) = some s) ↔ s ≠ t ∧ s.Straight t := by
  simp only [offset_eq_some_iff, Offset.rows_times, Offset.cols_times, ne_iff, Straight,
    orthogonals, List.mem_cons, List.not_mem_nil, or_false, exists_eq_or_imp, exists_eq_left]
  constructor
  · intro h
    rcases h with ⟨k, hk⟩ | ⟨k, hk⟩ | ⟨k, hk⟩ | ⟨k, hk⟩ <;> omega
  · intro h
    by_cases hcol : t.col.val < s.col.val
    · exact .inl ⟨t.colGap s, by simp only [colGap]; omega⟩
    by_cases hcol' : s.col.val < t.col.val
    · exact .inr (.inl ⟨t.colGap s, by simp only [colGap]; omega⟩)
    by_cases hrow : t.row.val < s.row.val
    · exact .inr (.inr (.inl ⟨t.rowGap s, by simp only [rowGap]; omega⟩))
    · exact .inr (.inr (.inr ⟨t.rowGap s, by simp only [rowGap]; omega⟩))

/-- Walking along diagonals reaches the squares on a common diagonal. -/
theorem exists_diagonal_iff :
    (∃ d ∈ diagonals, ∃ k, 0 < k ∧ t.offset (d.times k) = some s) ↔ s ≠ t ∧ s.Diagonal t := by
  simp only [offset_eq_some_iff, Offset.rows_times, Offset.cols_times, ne_iff, Diagonal, diagonals,
    List.mem_cons, List.not_mem_nil, or_false, exists_eq_or_imp, exists_eq_left]
  constructor
  · intro h
    rcases h with ⟨k, hk⟩ | ⟨k, hk⟩ | ⟨k, hk⟩ | ⟨k, hk⟩ <;> omega
  · intro h
    by_cases hrow : t.row.val < s.row.val
    · by_cases hcol : t.col.val < s.col.val
      · exact .inl ⟨t.rowGap s, by simp only [rowGap]; omega⟩
      · exact .inr (.inl ⟨t.rowGap s, by simp only [rowGap]; omega⟩)
    · by_cases hcol : t.col.val < s.col.val
      · exact .inr (.inr (.inl ⟨t.rowGap s, by simp only [rowGap]; omega⟩))
      · exact .inr (.inr (.inr ⟨t.rowGap s, by simp only [rowGap]; omega⟩))

theorem exists_knightJump_iff :
    (∃ d ∈ knightJumps, t.offset d = some s) ↔ s.KnightMove t := by
  simp only [offset_eq_some_iff, KnightMove, rowGap, colGap, knightJumps, List.mem_cons,
    List.not_mem_nil, or_false, exists_eq_or_imp, exists_eq_left]
  omega

/-- A pawn that attacks stands one of its own steps behind. -/
theorem exists_pawnOrigin_iff {side : Side} :
    (∃ d ∈ pawnOrigins side, t.offset d = some s) ↔
      (s.row.val : Int) + side.pawnAdvance = t.row.val ∧ s.colGap t = 1 := by
  simp only [offset_eq_some_iff, colGap, pawnOrigins, List.mem_cons, List.not_mem_nil, or_false,
    exists_eq_or_imp, exists_eq_left]
  omega

end Square

/-! ## Pieces and lines -/

theorem Cell.isOneOf_eq_true_iff {c : Cell} {side : Side} {kinds : List Kind} :
    c.isOneOf side kinds = true ↔ c.occupant = some side ∧ c.kind ∈ kinds := by
  simp [Cell.isOneOf]

theorem Cell.isEmpty_of_occupant {c : Cell} {side : Side} (h : c.occupant = some side) :
    c.isEmpty = false := by
  rw [Cell.occupant] at h
  split at h
  · cases h
  · simp_all

theorem ne_zero_of_mem_directions {d : Offset} (hd : d ∈ orthogonals ++ diagonals) :
    d ≠ ⟨0, 0⟩ := by
  intro hzero
  rw [hzero] at hd
  exact absurd hd (by decide)

namespace Board

variable {b : Board} {t : Square} {attacker : Side}

/-- Closer squares that are empty are an open line. -/
theorem openTo_iff_clear {s : Square} {d : Offset} {k : Nat} (hd : d ∈ orthogonals ++ diagonals)
    (hs : t.offset (d.times k) = some s) : b.OpenTo t d k ↔ b.Clear s t := by
  constructor
  · intro h m hm
    obtain ⟨j, hj, hlt, hjm⟩ := (Square.between_iff_exists_times hd hs).1 hm
    exact h j hj hlt m hjm
  · intro h j hj hlt m hm
    exact h m ((Square.between_iff_exists_times hd hs).2 ⟨j, hj, hlt, hm⟩)

/-- A pawn belongs to one side. -/
theorem eq_of_pawn {s : Square} {side : Side} (hcell : b.cell s = ⟨.pawn, side⟩)
    (howner : (b.cell s).occupant = some attacker) : attacker = side := by
  rw [hcell] at howner
  exact (Option.some.inj howner).symm

/-- A pawn one of its own steps behind a square, in a column next to it, strikes it. -/
theorem Strikes.of_pawn {s : Square} {side : Side} (hside : (b.cell s).occupant = some side)
    (hkind : (b.cell s).kind = .pawn) (hrow : (s.row.val : Int) + side.pawnAdvance = t.row.val)
    (hcol : s.colGap t = 1) : b.Strikes s t := by
  have hcell : b.cell s = ⟨.pawn, side⟩ := by
    rcases hc : b.cell s with ⟨kind, owner⟩
    simp_all [Cell.occupant, Cell.isEmpty]
  cases side with
  | white => exact .whitePawn hcell (by simp only [Side.pawnAdvance] at hrow; omega) hcol
  | black => exact .blackPawn hcell (by simp only [Side.pawnAdvance] at hrow; omega) hcol

end Board
end KingCheck
