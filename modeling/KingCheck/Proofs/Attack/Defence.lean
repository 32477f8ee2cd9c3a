import KingCheck.Board.Rows
import KingCheck.Proofs.Attack.Detection

/-!
# Defenders

A side that is attacked may put pieces of its own between, or on the attackers' squares.  However
many it puts, and wherever, no attack comes of it: a piece that attacks afterwards stood there
before, and its line was open before, since a piece put on the board closes lines and opens none.
The same would be false of pieces of the attacker, and of squares that are emptied.
-/
namespace KingCheck.Board

/-- `b'` is `b` with pieces of one side put on some of its squares, whatever stood there. -/
def Reinforced (b : Board) (side : Side) (b' : Board) : Prop :=
  ∀ s, b'.cell s = b.cell s ∨ (b'.cell s).occupant = some side

namespace Reinforced

variable {b b' : Board} {attacker : Side} {s t : Square}

/-- A piece of the other side is one that was there. -/
theorem cell_eq_of_occupant (h : b.Reinforced attacker.opponent b')
    (hs : (b'.cell s).occupant = some attacker) : b'.cell s = b.cell s := by
  refine (h s).resolve_right fun hput => ?_
  rw [hs, Option.some.injEq] at hput
  exact attacker.opponent_ne hput.symm

/-- A line that is open was open before. -/
theorem clear (h : b.Reinforced attacker b') (hclear : b'.Clear s t) : b.Clear s t := by
  intro m hm
  rcases h m with hsame | hput
  · rw [← hsame]
    exact hclear m hm
  · have hempty := hclear m hm
    rw [Cell.isEmpty_of_occupant hput] at hempty
    cases hempty

/-- **A piece that strikes a square after the other side put its pieces struck it before.** -/
theorem attackedFrom (h : b.Reinforced attacker.opponent b')
    (hs : b'.AttackedFrom attacker t s) : b.AttackedFrom attacker t s := by
  obtain ⟨hne, hside, hstrikes⟩ := hs
  have hsame : b'.cell s = b.cell s := h.cell_eq_of_occupant hside
  exact ⟨hne, by rwa [← hsame], hstrikes.mono hsame.symm h.clear⟩

end Reinforced

variable {b b' : Board} {attacker : Side}

/-- A side is in check exactly if it has one king and the square of that is attacked. -/
theorem inCheck_eq_ok_true_iff {side : Side} : b.inCheck side = .ok true ↔
    ∃ king, b.kingSquare side = .ok king ∧ b.isAttacked king side.opponent = true := by
  rw [inCheck, check?]
  cases b.kingSquare side with
  | error e => simp [Except.map]
  | ok king => simp [Except.map, isAttacked]

/-- **Defenders never create an attack.**  Where a side has put pieces on some squares, empty or
not, the other side attacks no square that it did not attack before, each piece that attacks it now
attacked it before, and a king that is in check was in check, unless it is another king. -/
theorem isAttacked_of_reinforced (h : b.Reinforced attacker.opponent b') :
    (∀ t, b'.isAttacked t attacker = true → b.isAttacked t attacker = true) ∧
    (∀ t s, b'.AttackedFrom attacker t s →
      b'.cell s = b.cell s ∧ b.AttackedFrom attacker t s) ∧
    (b'.kingSquare attacker.opponent = b.kingSquare attacker.opponent →
      b'.inCheck attacker.opponent = .ok true → b.inCheck attacker.opponent = .ok true) := by
  have hattacked : ∀ t, b'.isAttacked t attacker = true → b.isAttacked t attacker = true := by
    intro t ht
    obtain ⟨s, hs⟩ := isAttacked_iff_exists_attackedFrom.1 ht
    exact isAttacked_iff_exists_attackedFrom.2 ⟨s, h.attackedFrom hs⟩
  refine ⟨hattacked, fun t s hs => ⟨h.cell_eq_of_occupant hs.2.1, h.attackedFrom hs⟩, ?_⟩
  intro hking hcheck
  obtain ⟨king, hsquare, hon⟩ := inCheck_eq_ok_true_iff.1 hcheck
  rw [attacker.opponent_opponent] at hon
  refine inCheck_eq_ok_true_iff.2 ⟨king, hking ▸ hsquare, ?_⟩
  rw [attacker.opponent_opponent]
  exact hattacked king hon

/-- A black king that a white rook, a white bishop and a white knight attack. -/
def besieged : Board := ofCells <| Drawing.cell
  ["k......R", "........", ".N......", "........", "........", ".....B..", "........", "....K..."]

/-- The same with a black pawn between king and rook, and the bishop taken. -/
def defended : Board := ofCells <| Drawing.cell
  ["k..p...R", "........", ".N......", "........", "........", ".....n..", "........", "....K..."]

/-- Of the three attackers the knight is left, which attacked before. -/
theorem isAttacked_of_reinforced_besieged :
    besieged.Reinforced .black defended ∧
    defended.attacker? ⟨0, 0⟩ .white = some ⟨.knight, .white, ⟨2, 1⟩⟩ ∧
    besieged.isAttacked ⟨0, 0⟩ .white = true ∧ besieged.AttackedFrom .white ⟨0, 0⟩ ⟨2, 1⟩ ∧
    besieged.inCheck .black = .ok true := by
  have hput : besieged.Reinforced Side.white.opponent defended := by
    have hall : ∀ s ∈ Square.all, defended.cell s = besieged.cell s ∨
        (defended.cell s).occupant = some .black := by decide +kernel
    exact fun s => hall s (Square.mem_all s)
  have hkings : defended.kings = besieged.kings := by decide +kernel
  have hking : defended.kings.of .black = ⟨1, some ⟨0, 0⟩⟩ := by decide +kernel
  have hdefended : defended.inCheck .black = .ok true :=
    inCheck_eq_ok_true_iff.2 ⟨⟨0, 0⟩, by simp [kingSquare, hking], by decide +kernel⟩
  obtain ⟨hattacked, hfrom, hcheck⟩ := isAttacked_of_reinforced hput
  refine ⟨hput, by decide +kernel, hattacked _ (by decide +kernel), ?_, ?_⟩
  · refine (hfrom ⟨0, 0⟩ ⟨2, 1⟩ ⟨by decide, by decide +kernel, ?_⟩).2
    exact .jump (by decide +kernel) (.inr ⟨rfl, rfl⟩)
  · exact hcheck (by rw [kingSquare, kingSquare, hkings]) hdefended

end KingCheck.Board
