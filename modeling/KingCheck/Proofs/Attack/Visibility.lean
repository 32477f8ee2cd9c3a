import KingCheck.Board.Rows
import KingCheck.Proofs.Attack.Detection

/-!
# What an attack depends on

The search for an attacker of a square looks at few other squares: along each line up to the first
piece, at the squares of a knight's jump, and at those where a pawn of the side would stand.
`Board.Visible` says by coordinates which squares these are, and the looks of the search go over
exactly them (`visible_iff_exists_passes`).  Boards that agree there name the same attacker,
although the squares that have to agree depend on the board.
-/
namespace KingCheck

/-- Two conditions that agree up to the first hit of one stop at the same place. -/
theorem upTo_congr {α : Type} {p q : α → Bool} {l : List α} (h : ∀ a ∈ upTo p l, q a = p a) :
    upTo q l = upTo p l := by
  induction l with
  | nil => rfl
  | cons a rest ih =>
    have hfirst : q a = p a := h a (by rw [upTo]; split <;> simp)
    rw [upTo, upTo, hfirst]
    by_cases hp : p a = true
    · rw [if_pos hp, if_pos hp]
    · rw [if_neg hp, if_neg hp, ih fun c hc => h c (by simp [upTo, hp, hc])]

namespace Board

/-- The squares that can decide who of a side attacks `t`. -/
inductive Visible (b : Board) (attacker : Side) (t s : Square) : Prop where
  /-- On the lines through `t`, those up to the first piece and the one that it stands on. -/
  | line (ne : s ≠ t) (line : s.Straight t ∨ s.Diagonal t) (clear : b.Clear s t)
  /-- Those a knight's jump away. -/
  | jump (move : s.KnightMove t)
  /-- For white, the diagonal neighbours in the row after that of `t`. -/
  | whitePawn (side : attacker = .white) (row : s.row.val = t.row.val + 1) (col : s.colGap t = 1)
  /-- For black, the diagonal neighbours in the row before that of `t`. -/
  | blackPawn (side : attacker = .black) (row : s.row.val + 1 = t.row.val) (col : s.colGap t = 1)

variable {b b' : Board} {attacker : Side} {s m t : Square} {look : Look}

/-- **The looks of the search go over the visible squares and over no others.** -/
theorem visible_iff_exists_passes :
    b.Visible attacker t s ↔ ∃ look ∈ Look.order attacker, b.Passes t look s := by
  rw [exists_order_iff,
    exists_passes_line_iff (fun d hd => List.mem_append_left _ hd)
      (fun _ => Square.exists_orthogonal_iff),
    exists_passes_line_iff (fun d hd => List.mem_append_right _ hd)
      (fun _ => Square.exists_diagonal_iff)]
  simp only [passes_leap_iff, Square.exists_knightJump_iff, Square.exists_pawnOrigin_iff]
  constructor
  · intro h
    cases h with
    | line hne hline hclear =>
      rcases hline with hstraight | hdiagonal
      · exact .inl ⟨hne, hstraight, hclear⟩
      · exact .inr (.inl ⟨hne, hdiagonal, hclear⟩)
    | jump hmove => exact .inr (.inr (.inl hmove))
    | whitePawn hside hrow hcol =>
      refine .inr (.inr (.inr ⟨?_, hcol⟩))
      rw [hside, Side.pawnAdvance]
      omega
    | blackPawn hside hrow hcol =>
      refine .inr (.inr (.inr ⟨?_, hcol⟩))
      rw [hside, Side.pawnAdvance]
      omega
  · intro h
    obtain ⟨hne, hline, hclear⟩ | ⟨hne, hline, hclear⟩ | hmove | ⟨hrow, hcol⟩ := h
    · exact .line hne (.inl hline) hclear
    · exact .line hne (.inr hline) hclear
    · exact .jump hmove
    · cases attacker with
      | white => exact .whitePawn rfl (by rw [Side.pawnAdvance] at hrow; omega) hcol
      | black => exact .blackPawn rfl (by rw [Side.pawnAdvance] at hrow; omega) hcol

/-- A look finds the same where the boards agree on the squares that it goes over. -/
theorem look?_congr (h : ∀ s, b.Passes t look s → b'.cell s = b.cell s) :
    b'.look? t attacker look = b.look? t attacker look := by
  have hseen : ∀ s ∈ upTo (fun s => !(b.cell s).isEmpty)
      (Square.walk look.direction look.reach t), b'.cell s = b.cell s :=
    fun s hs => h s (b.mem_upTo_walk_iff.1 hs)
  rw [look?, look?, upTo_congr fun s hs => by rw [hseen s hs]]
  exact findSome?_congr fun s hs => by rw [attackFrom?, attackFrom?, hseen s hs]

/-- **Boards that agree on the visible squares name the same attacker.** -/
theorem attacker?_congr (h : ∀ s, b.Visible attacker t s → b'.cell s = b.cell s) :
    b'.attacker? t attacker = b.attacker? t attacker := by
  rw [attacker?_eq_findSome?, attacker?_eq_findSome?]
  refine findSome?_congr fun look hlook => look?_congr fun s hs => ?_
  exact h s (visible_iff_exists_passes.2 ⟨look, hlook, hs⟩)

/-- The square itself is not one of those that it is attacked from. -/
theorem Visible.ne (h : b.Visible attacker t s) : s ≠ t := by
  rintro rfl
  cases h with
  | line hne => exact hne rfl
  | jump hmove => simp [Square.KnightMove, Square.rowGap] at hmove
  | whitePawn _ hrow | blackPawn _ hrow => omega

/-- A piece of either side hides what is behind it. -/
theorem Visible.clear (h : b.Visible attacker t s) : b.Clear s t := by
  intro m hm
  cases h with
  | line _ _ hclear => exact hclear m hm
  | jump hmove => exact absurd hm (not_between_of_knightMove hmove)
  | whitePawn _ _ hcol | blackPawn _ _ hcol => exact absurd hcol (gap_ne_one_of_between hm).2

/-- **What is not visible from a square has no say in who attacks it.**  Boards that agree on the
visible squares name the same attacker, of the same kind and on the same square, or none.  So what
stands on the square itself does not matter, nor what stands behind a piece, seen from there. -/
theorem attacker?_decided_by_visible (b : Board) (attacker : Side) (t : Square) :
    (∀ b' : Board, (∀ s, b.Visible attacker t s → b'.cell s = b.cell s) →
      b'.attacker? t attacker = b.attacker? t attacker) ∧
    ∀ b' : Board, (∀ s, s ≠ t → b.Clear s t → b'.cell s = b.cell s) →
      b'.attacker? t attacker = b.attacker? t attacker :=
  ⟨fun _ hsame => attacker?_congr hsame,
    fun _ hsame => attacker?_congr fun s hs => hsame s hs.ne hs.clear⟩

/-- A corner that a white queen looks at along its column, with a black pawn on its row and a white
pawn on its diagonal. -/
def curtained : Board := ofCells <| Drawing.cell
  ["...p....", "........", "..P.....", "........", "........", "........", "Q.......", "........"]

/-- The same with a king on the corner and queens behind the pawns. -/
def lurking : Board := ofCells <| Drawing.cell
  ["k..p...Q", "........", "..P.....", "........", "........", "........", "Q.......", ".......Q"]

/-- The queen on the column is named in both, although the queen behind the first pawn would be met
by an earlier look. -/
theorem attacker?_decided_by_visible_curtained :
    (∀ s, curtained.Visible .white ⟨0, 0⟩ s → lurking.cell s = curtained.cell s) ∧
    (∀ s, s ≠ ⟨0, 0⟩ → curtained.Clear s ⟨0, 0⟩ → lurking.cell s = curtained.cell s) ∧
    curtained.attacker? ⟨0, 0⟩ .white = some ⟨.queen, .white, ⟨6, 0⟩⟩ ∧
    lurking.attacker? ⟨0, 0⟩ .white = some ⟨.queen, .white, ⟨6, 0⟩⟩ := by
  have hrow : ¬ curtained.Clear ⟨0, 7⟩ ⟨0, 0⟩ := by
    intro hclear
    have hempty := hclear ⟨0, 3⟩ (.inl ⟨rfl, rfl, .inr (by decide)⟩)
    exact absurd hempty (by decide +kernel)
  have hdiagonal : ¬ curtained.Clear ⟨7, 7⟩ ⟨0, 0⟩ := by
    intro hclear
    have hempty := hclear ⟨2, 2⟩
      (.inr (.inr ⟨.inl rfl, .inl rfl, .inr (by decide), .inr (by decide)⟩))
    exact absurd hempty (by decide +kernel)
  have hall : ∀ s ∈ Square.all, s = ⟨0, 0⟩ ∨ s = ⟨0, 7⟩ ∨ s = ⟨7, 7⟩ ∨
      lurking.cell s = curtained.cell s := by decide +kernel
  have hsame : ∀ s, s ≠ ⟨0, 0⟩ → curtained.Clear s ⟨0, 0⟩ →
      lurking.cell s = curtained.cell s := by
    intro s hne hclear
    rcases hall s (Square.mem_all s) with heq | rfl | rfl | hcell
    · exact absurd heq hne
    · exact absurd hclear hrow
    · exact absurd hclear hdiagonal
    · exact hcell
  have hvisible : ∀ s, curtained.Visible .white ⟨0, 0⟩ s → lurking.cell s = curtained.cell s :=
    fun s hs => hsame s hs.ne hs.clear
  have hqueen : curtained.attacker? ⟨0, 0⟩ .white = some ⟨.queen, .white, ⟨6, 0⟩⟩ := by
    decide +kernel
  refine ⟨hvisible, hsame, hqueen, ?_⟩
  rw [(attacker?_decided_by_visible curtained .white ⟨0, 0⟩).1 lurking hvisible, hqueen]

end Board
end KingCheck
