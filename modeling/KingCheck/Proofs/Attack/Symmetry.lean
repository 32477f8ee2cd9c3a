import KingCheck.Board.Rows
import KingCheck.Proofs.Attack.Detection
import KingCheck.Proofs.Board.KingSquares

/-!
# Symmetries of the game

The rules of attack speak of how many rows and columns squares are apart, and of the way that
pawns advance; of nothing else.  So a map of the squares that keeps the distances, with a map of
the sides that keeps each pawn's way forward, keeps who strikes whom.  A board can be turned
upside down, if the sides change places, and be mirrored.  The order of looking is no such thing:
another attacker may be named on the other board, but one is named exactly if one was.
-/
namespace KingCheck

theorem Side.eq_or_eq_opponent (a a' : Side) : a' = a ∨ a' = a.opponent := by
  cases a <;> cases a' <;> simp [opponent]

@[simp] theorem Cell.occupant_tidy (c : Cell) : c.tidy.occupant = c.occupant := by
  rcases c with ⟨kind, side⟩
  cases kind <;> rfl

@[simp] theorem Cell.kind_tidy (c : Cell) : c.tidy.kind = c.kind := by
  rcases c with ⟨kind, side⟩
  cases kind <;> rfl

/-! ## The rules by distances -/

namespace Square

variable {s m t : Square}

theorem diagonal_iff_gap : s.Diagonal t ↔ s.rowGap t = s.colGap t := by
  simp only [Diagonal, rowGap, colGap]
  omega

theorem row_eq_iff_gap : s.row.val = t.row.val ↔ s.rowGap t = 0 := by
  rw [rowGap]
  omega

theorem col_eq_iff_gap : s.col.val = t.col.val ↔ s.colGap t = 0 := by
  rw [colGap]
  omega

/-- A row lies between two others if it is apart from both, and its distances to them are together
their distance. -/
theorem inside_row_iff_gaps : Inside s.row.val m.row.val t.row.val ↔
    0 < s.rowGap m ∧ 0 < m.rowGap t ∧ s.rowGap m + m.rowGap t = s.rowGap t := by
  simp only [Inside, rowGap]
  omega

theorem inside_col_iff_gaps : Inside s.col.val m.col.val t.col.val ↔
    0 < s.colGap m ∧ 0 < m.colGap t ∧ s.colGap m + m.colGap t = s.colGap t := by
  simp only [Inside, colGap]
  omega

/-! ## The moved board's squares -/

/-- The square on the board turned upside down. -/
def turned (s : Square) : Square := ⟨s.row.rev, s.col⟩

/-- The square on the board in a mirror, with the columns in the other order. -/
def mirrored (s : Square) : Square := ⟨s.row, s.col.rev⟩

theorem turned_turned (s : Square) : s.turned.turned = s := by
  simp [turned]

theorem mirrored_mirrored (s : Square) : s.mirrored.mirrored = s := by
  simp [mirrored]

theorem rowGap_turned (s t : Square) : s.turned.rowGap t.turned = s.rowGap t := by
  simp only [rowGap, turned, Fin.val_rev]
  omega

theorem colGap_turned (s t : Square) : s.turned.colGap t.turned = s.colGap t := rfl

theorem rowGap_mirrored (s t : Square) : s.mirrored.rowGap t.mirrored = s.rowGap t := rfl

theorem colGap_mirrored (s t : Square) : s.mirrored.colGap t.mirrored = s.colGap t := by
  simp only [colGap, mirrored, Fin.val_rev]
  omega

/-- On the board turned upside down the other side's pawns advance the same way. -/
theorem advance_turned {a : Side} (h : (s.row.val : Int) + a.pawnAdvance = t.row.val) :
    (s.turned.row.val : Int) + a.opponent.pawnAdvance = t.turned.row.val := by
  simp only [turned, Fin.val_rev, Side.pawnAdvance_opponent]
  omega

end Square

/-- A symmetry of the game: squares and sides go back where they came from when they are moved
twice, squares stay as far apart, and pawns stand as they did before what they attack. -/
structure Symmetry where
  square : Square → Square
  side : Side → Side
  square_square : ∀ s, square (square s) = s
  side_side : ∀ a, side (side a) = a
  rowGap : ∀ s t, (square s).rowGap (square t) = s.rowGap t
  colGap : ∀ s t, (square s).colGap (square t) = s.colGap t
  advance : ∀ {a s t}, (s.row.val : Int) + a.pawnAdvance = t.row.val →
    ((square s).row.val : Int) + (side a).pawnAdvance = (square t).row.val

namespace Symmetry

/-- The board turned upside down, with the sides exchanged. -/
def turn : Symmetry where
  square := Square.turned
  side := Side.opponent
  square_square := Square.turned_turned
  side_side := Side.opponent_opponent
  rowGap := Square.rowGap_turned
  colGap := Square.colGap_turned
  advance := Square.advance_turned

/-- The board in a mirror, with the columns in the other order. -/
def mirror : Symmetry where
  square := Square.mirrored
  side := id
  square_square := Square.mirrored_mirrored
  side_side _ := rfl
  rowGap := Square.rowGap_mirrored
  colGap := Square.colGap_mirrored
  advance h := h

variable (σ : Symmetry)

/-- The same piece, of the side that takes the place of its own. -/
def cell (c : Cell) : Cell := ⟨c.kind, σ.side c.side⟩

/-- The board with every piece where the symmetry moves it. -/
def board (b : Board) : Board := Board.ofCells fun s => σ.cell (b.cell (σ.square s))

variable {b : Board} {s m t : Square} {a : Side}

theorem square_injective : Function.Injective σ.square :=
  Function.LeftInverse.injective σ.square_square

theorem side_inj {a' : Side} : σ.side a = σ.side a' ↔ a = a' :=
  (Function.LeftInverse.injective σ.side_side).eq_iff

/-- Opponents stay opponents. -/
theorem side_opponent (a : Side) : σ.side a.opponent = (σ.side a).opponent := by
  refine ((σ.side a).eq_or_eq_opponent _).resolve_left ?_
  rw [σ.side_inj]
  exact a.opponent_ne

@[simp] theorem isEmpty_cell (c : Cell) : (σ.cell c).isEmpty = c.isEmpty := rfl

theorem occupant_cell (c : Cell) : (σ.cell c).occupant = c.occupant.map σ.side := by
  rw [Cell.occupant, Cell.occupant, isEmpty_cell]
  split <;> rfl

theorem tidy_cell_tidy_cell (c : Cell) : (σ.cell (σ.cell c).tidy).tidy = c.tidy := by
  rcases c with ⟨kind, side⟩
  cases kind <;> simp [cell, Cell.tidy, Cell.isEmpty, Cell.vacant, σ.side_side]

/-! ### What stands where -/

theorem cell_board : (σ.board b).cell (σ.square s) = (σ.cell (b.cell s)).tidy := by
  rw [board, Board.cell_ofCells, σ.square_square]

/-- A symmetry undoes itself. -/
@[simp] theorem board_board (b : Board) : σ.board (σ.board b) = b := by
  refine Board.ext_cell fun s => ?_
  obtain ⟨s, rfl⟩ : ∃ s', s = σ.square s' := ⟨σ.square s, (σ.square_square s).symm⟩
  rw [cell_board]
  nth_rewrite 1 [← σ.square_square s]
  rw [cell_board, tidy_cell_tidy_cell, Board.tidy_cell_eq]

theorem kind_board : ((σ.board b).cell (σ.square s)).kind = (b.cell s).kind := by
  rw [cell_board, Cell.kind_tidy]
  rfl

theorem isEmpty_board : ((σ.board b).cell (σ.square s)).isEmpty = (b.cell s).isEmpty := by
  rw [cell_board, Cell.isEmpty_tidy, isEmpty_cell]

theorem occupant_board :
    ((σ.board b).cell (σ.square s)).occupant = (b.cell s).occupant.map σ.side := by
  rw [cell_board, Cell.occupant_tidy, occupant_cell]

/-- A king stands where a king of the other name stood. -/
theorem cell_board_eq_king_iff :
    (σ.board b).cell (σ.square s) = ⟨.king, σ.side a⟩ ↔ b.cell s = ⟨.king, a⟩ := by
  rw [cell_board]
  rcases b.cell s with ⟨kind, owner⟩
  cases kind <;> simp [cell, Cell.tidy, Cell.isEmpty, Cell.vacant, σ.side_inj]

/-! ### Attacks -/

theorem straight (h : s.Straight t) : (σ.square s).Straight (σ.square t) := by
  rw [Square.Straight, Square.row_eq_iff_gap, Square.col_eq_iff_gap] at h ⊢
  rwa [σ.rowGap, σ.colGap]

theorem diagonal (h : s.Diagonal t) : (σ.square s).Diagonal (σ.square t) := by
  rw [Square.diagonal_iff_gap] at h ⊢
  rwa [σ.rowGap, σ.colGap]

theorem knightMove (h : s.KnightMove t) : (σ.square s).KnightMove (σ.square t) := by
  rw [Square.KnightMove] at h ⊢
  rwa [σ.rowGap, σ.colGap]

theorem between_iff : (σ.square s).Between (σ.square m) (σ.square t) ↔ s.Between m t := by
  simp only [Square.Between, Square.row_eq_iff_gap, Square.col_eq_iff_gap, Square.diagonal_iff_gap,
    Square.inside_row_iff_gaps, Square.inside_col_iff_gaps, σ.rowGap, σ.colGap]

/-- An open line stays open. -/
theorem clear (h : b.Clear s t) : (σ.board b).Clear (σ.square s) (σ.square t) := by
  intro m hm
  obtain ⟨m, rfl⟩ : ∃ m', m = σ.square m' := ⟨σ.square m, (σ.square_square m).symm⟩
  rw [isEmpty_board]
  exact h m (σ.between_iff.1 hm)

theorem of_pawn (hcell : b.cell s = ⟨.pawn, a⟩)
    (hrow : (s.row.val : Int) + a.pawnAdvance = t.row.val) (hcol : s.colGap t = 1) :
    (σ.board b).Strikes (σ.square s) (σ.square t) := by
  have howner : ((σ.board b).cell (σ.square s)).occupant = some (σ.side a) := by
    rw [occupant_board, hcell]
    rfl
  refine .of_pawn howner ?_ (σ.advance hrow) ?_
  · rw [kind_board, hcell]
  · rwa [σ.colGap]

/-- **A symmetry keeps who strikes whom.** -/
theorem strikes (h : b.Strikes s t) : (σ.board b).Strikes (σ.square s) (σ.square t) := by
  cases h with
  | straight hkind hline hclear =>
    exact .straight (by rwa [kind_board]) (σ.straight hline) (σ.clear hclear)
  | diagonal hkind hline hclear =>
    exact .diagonal (by rwa [kind_board]) (σ.diagonal hline) (σ.clear hclear)
  | jump hkind hmove => exact .jump (by rwa [kind_board]) (σ.knightMove hmove)
  | whitePawn hcell hrow hcol =>
    exact σ.of_pawn hcell (by simp only [Side.pawnAdvance]; omega) hcol
  | blackPawn hcell hrow hcol =>
    exact σ.of_pawn hcell (by simp only [Side.pawnAdvance]; omega) hcol

theorem isAttacked_of_isAttacked (h : b.isAttacked t a = true) :
    (σ.board b).isAttacked (σ.square t) (σ.side a) = true := by
  obtain ⟨s, hne, howner, hstrikes⟩ := Board.isAttacked_eq_true_iff.1 h
  refine Board.isAttacked_eq_true_iff.2
    ⟨σ.square s, σ.square_injective.ne hne, ?_, σ.strikes hstrikes⟩
  rw [occupant_board, howner]
  rfl

/-- **A symmetry keeps which squares are attacked.** -/
theorem isAttacked_board (b : Board) (t : Square) (a : Side) :
    (σ.board b).isAttacked (σ.square t) (σ.side a) = b.isAttacked t a := by
  rw [Bool.eq_iff_iff]
  constructor
  · intro h
    have hback := σ.isAttacked_of_isAttacked h
    rwa [board_board, square_square, side_side] at hback
  · exact σ.isAttacked_of_isAttacked

/-! ### Kings -/

/-- The kings stand where they are moved to, in some order. -/
theorem kingSquares_perm (b : Board) (a : Side) :
    ((σ.board b).kingSquares (σ.side a)).Perm ((b.kingSquares a).map σ.square) := by
  rw [List.perm_ext_iff_of_nodup Board.nodup_kingSquares
    (Board.nodup_kingSquares.map σ.square_injective)]
  intro s
  obtain ⟨s, rfl⟩ : ∃ s', s = σ.square s' := ⟨σ.square s, (σ.square_square s).symm⟩
  rw [Board.mem_kingSquares, cell_board_eq_king_iff, List.mem_map_of_injective σ.square_injective,
    Board.mem_kingSquares]

variable {policy : MissingKing} {found : Option Attack} {j : Judgement}

/-- A king that can be looked at can be looked at after a symmetry, and is attacked if it was. -/
theorem checkUnder_board (h : b.checkUnder policy a = .ok found) :
    ∃ found', (σ.board b).checkUnder policy (σ.side a) = .ok found' ∧
      found'.isSome = found.isSome := by
  have hperm := σ.kingSquares_perm b a
  rcases Board.checkUnder_eq_ok_iff.1 h with ⟨s, hsquares, rfl⟩ | ⟨hsquares, hpolicy, rfl⟩
  · rw [hsquares, List.map_singleton, List.perm_singleton] at hperm
    refine ⟨_, Board.checkUnder_eq_ok_iff.2 (.inl ⟨σ.square s, hperm, rfl⟩), ?_⟩
    rw [← side_opponent]
    exact σ.isAttacked_board b s a.opponent
  · rw [hsquares, List.map_nil, List.perm_nil] at hperm
    exact ⟨none, Board.checkUnder_eq_ok_iff.2 (.inr ⟨hperm, hpolicy, rfl⟩), rfl⟩

/-- **A board that is judged is judged after a symmetry, with the same kings attacked.** -/
theorem evaluate_board (h : b.evaluate policy = .ok j) :
    ∃ j', (σ.board b).evaluate policy = .ok j' ∧
      ∀ a, (j'.on (σ.side a)).isSome = (j.on a).isSome := by
  have hsides : ∀ a, ∃ found, (σ.board b).checkUnder policy (σ.side a) = .ok found ∧
      found.isSome = (j.on a).isSome :=
    fun a => σ.checkUnder_board (Board.evaluate_eq_ok_iff.1 h a)
  obtain ⟨onWhite, hwhite, -⟩ := hsides (σ.side .white)
  obtain ⟨onBlack, hblack, -⟩ := hsides (σ.side .black)
  rw [side_side] at hwhite hblack
  have hjudged : (σ.board b).evaluate policy = .ok ⟨onWhite, onBlack⟩ :=
    Board.evaluate_eq_ok_iff.2 (Side.forall_iff.2 ⟨hwhite, hblack⟩)
  refine ⟨_, hjudged, fun a => ?_⟩
  obtain ⟨found, hfound, hsame⟩ := hsides a
  have hon := Board.evaluate_eq_ok_iff.1 hjudged (σ.side a)
  rw [hfound] at hon
  rw [← Except.ok.inj hon, hsame]

/-- A symmetry keeps whether a board is judged. -/
theorem exists_evaluate_board_iff :
    (∃ j, (σ.board b).evaluate policy = .ok j) ↔ ∃ j, b.evaluate policy = .ok j := by
  constructor
  · rintro ⟨j, hj⟩
    obtain ⟨j', hj', -⟩ := σ.evaluate_board hj
    rw [board_board] at hj'
    exact ⟨j', hj'⟩
  · rintro ⟨j, hj⟩
    obtain ⟨j', hj', -⟩ := σ.evaluate_board hj
    exact ⟨j', hj'⟩

end Symmetry

namespace Verdict

/-- The verdict with the sides exchanged. -/
def opposite : Verdict → Verdict
  | .whiteInCheck => .blackInCheck
  | .blackInCheck => .whiteInCheck
  | .noneInCheck => .noneInCheck

end Verdict

/-- The verdict says which kings are attacked, and white's comes first. -/
theorem Judgement.verdict_eq (j : Judgement) : j.verdict =
    if (j.on .white).isSome then .whiteInCheck
    else if (j.on .black).isSome then .blackInCheck else .noneInCheck := by
  rcases j with ⟨_ | _, _ | _⟩ <;> rfl

namespace Symmetry

variable {b : Board} {policy : MissingKing} {j : Judgement}

theorem verdict_mirror (h : b.evaluate policy = .ok j) :
    ∃ j', (mirror.board b).evaluate policy = .ok j' ∧ j'.verdict = j.verdict := by
  obtain ⟨j', hj', hon⟩ := mirror.evaluate_board h
  refine ⟨j', hj', ?_⟩
  have hwhite : (j'.on .white).isSome = (j.on .white).isSome := hon .white
  have hblack : (j'.on .black).isSome = (j.on .black).isSome := hon .black
  rw [j'.verdict_eq, j.verdict_eq, hwhite, hblack]

/-- Where both kings are attacked, white's is named on both boards; otherwise the sides of the
verdict are exchanged. -/
theorem verdict_turn (h : b.evaluate policy = .ok j) :
    ∃ j', (turn.board b).evaluate policy = .ok j' ∧
      ((∀ side, b.KingAttacked side) → j.verdict = .whiteInCheck ∧ j'.verdict = .whiteInCheck) ∧
      (¬ (∀ side, b.KingAttacked side) → j'.verdict = j.verdict.opposite) := by
  obtain ⟨j', hj', hon⟩ := turn.evaluate_board h
  have hblack : (j'.on .black).isSome = (j.on .white).isSome := hon .white
  have hwhite : (j'.on .white).isSome = (j.on .black).isSome := hon .black
  refine ⟨j', hj', ?_⟩
  rw [j'.verdict_eq, j.verdict_eq, hwhite, hblack, Side.forall_iff, ← Board.on_isSome_iff h,
    ← Board.on_isSome_iff h]
  cases (j.on .white).isSome <;> cases (j.on .black).isSome <;> simp [Verdict.opposite]

/-- **Turning the board and mirroring it keep attacks and verdicts.**  A square is attacked
exactly if the one it is moved to is, by the side that took the place of the attacker's.  A board
is judged exactly if the moved board is.  A mirrored board has the same verdict, and a turned one
the verdict with the sides exchanged, but for boards on which both kings are attacked, where white
is named on both. -/
theorem verdict_turn_mirror (b : Board) :
    (∀ t a, (turn.board b).isAttacked (turn.square t) a.opponent = b.isAttacked t a) ∧
    (∀ t a, (mirror.board b).isAttacked (mirror.square t) a = b.isAttacked t a) ∧
    ∀ policy,
      ((∃ j, (turn.board b).evaluate policy = .ok j) ↔ ∃ j, b.evaluate policy = .ok j) ∧
      ((∃ j, (mirror.board b).evaluate policy = .ok j) ↔ ∃ j, b.evaluate policy = .ok j) ∧
      ∀ j, b.evaluate policy = .ok j →
        (∃ j', (mirror.board b).evaluate policy = .ok j' ∧ j'.verdict = j.verdict) ∧
        ∃ j', (turn.board b).evaluate policy = .ok j' ∧
          ((∀ side, b.KingAttacked side) →
            j.verdict = .whiteInCheck ∧ j'.verdict = .whiteInCheck) ∧
          (¬ (∀ side, b.KingAttacked side) → j'.verdict = j.verdict.opposite) := by
  refine ⟨turn.isAttacked_board b, mirror.isAttacked_board b, fun policy => ?_⟩
  refine ⟨turn.exists_evaluate_board_iff, mirror.exists_evaluate_board_iff, fun j hj => ?_⟩
  exact ⟨verdict_mirror hj, verdict_turn hj⟩

/-- The white king with a black rook on its column, and the black king with a corner on its row. -/
def facing (corner : Char) : Board := Board.ofCells <| Drawing.cell
  [String.ofList (corner :: "...k...".toList), "........", "........", "........", "....r...",
    "........", "........", "....K..."]

/-- White's king alone is attacked, and on the turned board black's; with a white rook on the
black king's row both are, and white's is named on both boards. -/
theorem verdict_turn_mirror_facing :
    let one := facing '.'
    let two := facing 'R'
    ¬ one.KingAttacked .black ∧ (∀ side, two.KingAttacked side) ∧
    (∃ j, (turn.board one).evaluate .refuse = .ok j ∧ j.verdict = .blackInCheck) ∧
    (∃ j, (mirror.board one).evaluate .refuse = .ok j ∧ j.verdict = .whiteInCheck) ∧
    ∃ j, (turn.board two).evaluate .refuse = .ok j ∧ j.verdict = .whiteInCheck := by
  intro one two
  have hone : one.evaluate .refuse = .ok ⟨some ⟨.rook, .black, ⟨4, 4⟩⟩, none⟩ := by decide +kernel
  have htwo : two.evaluate .refuse =
      .ok ⟨some ⟨.rook, .black, ⟨4, 4⟩⟩, some ⟨.rook, .white, ⟨0, 0⟩⟩⟩ := by decide +kernel
  have hquiet : ¬ one.KingAttacked .black := by
    rw [← Board.on_isSome_iff hone]
    decide
  have hboth : ∀ side, two.KingAttacked side := by
    intro side
    rw [← Board.on_isSome_iff htwo]
    cases side <;> rfl
  obtain ⟨-, -, hpolicies⟩ := verdict_turn_mirror one
  obtain ⟨hmirror, j', hturned, -, hopposite⟩ := (hpolicies .refuse).2.2 _ hone
  obtain ⟨j'', hturnedTwo, hwhite, -⟩ := ((verdict_turn_mirror two).2.2 .refuse).2.2 _ htwo |>.2
  exact ⟨hquiet, hboth, ⟨j', hturned, hopposite fun h => hquiet (h .black)⟩, hmirror,
    j'', hturnedTwo, (hwhite hboth).2⟩

end Symmetry
end KingCheck
