import KingCheck.Proofs.Attack.Looks

/-!
# Detection of attacks

The search that looks outward from a square and the rules by which pieces attack agree: the
search is through looks, a look finds the piece of the attacker that it meets, and the pieces
that are met are those that strike the square.
-/
namespace KingCheck.Board

variable {b b' : Board} {s m t : Square} {attacker : Side}

/-- A side attacks a square exactly if a piece of its strikes the square. -/
theorem isAttacked_iff_exists_attackedFrom :
    b.isAttacked t attacker = true ↔ ∃ s, b.AttackedFrom attacker t s := by
  rw [isAttacked, attacker?_eq_findSome?, List.findSome?_isSome_iff]
  constructor
  · intro h
    obtain ⟨look, hlook, hfound⟩ := h
    obtain ⟨a, ha⟩ := Option.isSome_iff_exists.1 hfound
    obtain ⟨-, -, hside, hmeets⟩ := look?_eq_some_iff.1 ha
    exact ⟨a.origin, attackedFrom_iff_exists_meets.2 ⟨hside, look, hlook, hmeets⟩⟩
  · intro h
    obtain ⟨s, hs⟩ := h
    obtain ⟨hside, look, hlook, hmeets⟩ := attackedFrom_iff_exists_meets.1 hs
    have ha : b.look? t attacker look = some ⟨(b.cell s).kind, attacker, s⟩ :=
      look?_eq_some_iff.2 ⟨rfl, rfl, hside, hmeets⟩
    exact ⟨look, hlook, by rw [ha]; rfl⟩

/-- **A side attacks a square exactly when one of its pieces on another square strikes
it.** -/
theorem isAttacked_eq_true_iff :
    b.isAttacked t attacker = true ↔
      ∃ s, s ≠ t ∧ (b.cell s).occupant = some attacker ∧ b.Strikes s t :=
  isAttacked_iff_exists_attackedFrom

/-- No rule is about kings. -/
theorem not_strikes_of_king (h : (b.cell s).kind = .king) : ¬ b.Strikes s t := by
  intro hstrikes
  cases hstrikes with
  | straight hkind | diagonal hkind | jump hkind => simp [h] at hkind
  | whitePawn hcell | blackPawn hcell => simp [hcell] at h

/-- Where there is a square between, the ends are not one row or one column apart. -/
theorem gap_ne_one_of_between (hm : s.Between m t) : s.rowGap t ≠ 1 ∧ s.colGap t ≠ 1 := by
  simp only [Square.Between, Square.Diagonal, Inside] at hm
  simp only [Square.rowGap, Square.colGap]
  omega

/-- A knight's jump has no squares between its ends. -/
theorem not_between_of_knightMove (hmove : s.KnightMove t) : ¬ s.Between m t := by
  intro hm
  obtain ⟨hrow, hcol⟩ := gap_ne_one_of_between hm
  rcases hmove with ⟨hone, -⟩ | ⟨-, hone⟩
  · exact hrow hone
  · exact hcol hone

/-- A piece of either side shields what is behind it: where there is a square between,
only lines lead from one end to the other. -/
theorem not_strikes_of_between (hm : s.Between m t) (h : (b.cell m).isEmpty = false) :
    ¬ b.Strikes s t := by
  have hnot : ¬ b.Clear s t := fun hclear => by simp [hclear m hm] at h
  intro hstrikes
  cases hstrikes with
  | straight _ _ hclear | diagonal _ _ hclear => exact hnot hclear
  | jump _ hmove => exact not_between_of_knightMove hmove hm
  | whitePawn _ _ hcol | blackPawn _ _ hcol => exact (gap_ne_one_of_between hm).2 hcol

/-- A square between two others is neither of them. -/
theorem ne_of_between (hm : s.Between m t) : m ≠ t := by
  intro heq
  simp only [heq, Square.Between, Inside] at hm
  omega

/-- A piece keeps striking a square as long as it stays and its line stays open. -/
theorem Strikes.mono (hs : b'.cell s = b.cell s) (hclear : b.Clear s t → b'.Clear s t)
    (h : b.Strikes s t) : b'.Strikes s t := by
  cases h with
  | straight hkind hline hc => exact .straight (by rwa [hs]) hline (hclear hc)
  | diagonal hkind hline hc => exact .diagonal (by rwa [hs]) hline (hclear hc)
  | jump hkind hmove => exact .jump (by rwa [hs]) hmove
  | whitePawn hpawn hrow hcol => exact .whitePawn (by rwa [hs]) hrow hcol
  | blackPawn hpawn hrow hcol => exact .blackPawn (by rwa [hs]) hrow hcol

/-- Whether a piece strikes a square does not depend on what stands there. -/
theorem Strikes.of_cell_eq (hcell : ∀ s, s ≠ t → b'.cell s = b.cell s) (hne : s ≠ t)
    (h : b.Strikes s t) : b'.Strikes s t := by
  refine h.mono (hcell s hne) fun hclear m hm => ?_
  rw [hcell m (ne_of_between hm)]
  exact hclear m hm

/-- **A side attacks a square exactly when one of its pieces on another square strikes
it.**  Kings never strike; a piece of either side shields what is behind it; and what
stands on the square itself does not matter. -/
theorem isAttacked_iff_struck (b : Board) (t : Square) (attacker : Side) :
    (b.isAttacked t attacker = true ↔
      ∃ s, s ≠ t ∧ (b.cell s).occupant = some attacker ∧ b.Strikes s t) ∧
    (∀ s, (b.cell s).kind = .king → ¬ b.Strikes s t) ∧
    (∀ s m, s.Between m t → (b.cell m).isEmpty = false → ¬ b.Strikes s t) ∧
    ∀ b' : Board, (∀ s, s ≠ t → b'.cell s = b.cell s) →
      b'.isAttacked t attacker = b.isAttacked t attacker := by
  refine ⟨isAttacked_eq_true_iff, fun s hs => not_strikes_of_king hs,
    fun s m hm h => not_strikes_of_between hm h, ?_⟩
  intro b' hcell
  rw [Bool.eq_iff_iff, isAttacked_eq_true_iff, isAttacked_eq_true_iff]
  constructor
  · intro h
    obtain ⟨s, hne, hside, hstrikes⟩ := h
    exact ⟨s, hne, by rwa [← hcell s hne], hstrikes.of_cell_eq (fun u hu => (hcell u hu).symm) hne⟩
  · intro h
    obtain ⟨s, hne, hside, hstrikes⟩ := h
    exact ⟨s, hne, by rwa [hcell s hne], hstrikes.of_cell_eq hcell hne⟩

/-- A corner that a white rook looks at along its column; along its row a pawn stands
before another rook, and the white king is next to it. -/
def cornered (onCorner : Cell) : Board := Board.ofCells fun s =>
  if s = ⟨0, 0⟩ then onCorner
  else if s = ⟨7, 0⟩ ∨ s = ⟨0, 7⟩ then ⟨.rook, .white⟩
  else if s = ⟨0, 3⟩ then ⟨.pawn, .black⟩
  else if s = ⟨1, 1⟩ then ⟨.king, .white⟩
  else .vacant

/-- Of the two rooks and the king one rook strikes the corner, whether a king stands there
or a piece of the rook's own side. -/
theorem isAttacked_iff_struck_cornered :
    let b := cornered ⟨.king, .black⟩
    (∃ s, s ≠ ⟨0, 0⟩ ∧ (b.cell s).occupant = some .white ∧ b.Strikes s ⟨0, 0⟩) ∧
    ¬ b.Strikes ⟨1, 1⟩ ⟨0, 0⟩ ∧ ¬ b.Strikes ⟨0, 7⟩ ⟨0, 0⟩ ∧
    (cornered ⟨.queen, .white⟩).isAttacked ⟨0, 0⟩ .white = true := by
  intro b
  obtain ⟨hiff, hking, hshield, hframe⟩ := isAttacked_iff_struck b ⟨0, 0⟩ .white
  have hattacked : b.isAttacked ⟨0, 0⟩ .white = true := by decide +kernel
  have hbetween : Square.Between ⟨0, 7⟩ ⟨0, 3⟩ ⟨0, 0⟩ := .inl ⟨rfl, rfl, .inr (by decide)⟩
  refine ⟨hiff.1 hattacked, hking _ (by decide +kernel),
    hshield _ ⟨0, 3⟩ hbetween (by decide +kernel), ?_⟩
  rw [hframe, hattacked]
  intro s hs
  simp [b, cornered, cell_ofCells, hs]

end KingCheck.Board
