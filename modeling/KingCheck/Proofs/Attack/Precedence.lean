import KingCheck.Board.Rows
import KingCheck.Proofs.Attack.Detection

/-!
# The attacker that is named

Where several pieces strike a square, one of them is named: the one that is met by the earliest
look.  The place of that look in the order of looking is the rank of the piece.  It is its only
rank, since no other look meets it, and no other attacker has it, since a look meets one piece at
most.  A line that is blocked has a place in the order all the same, and the search goes on to the
next.
-/
namespace KingCheck.Board

variable (b : Board)

/-- The place, in the order of looking from `t`, of the look that meets the piece on `s`. -/
def Ranks (attacker : Side) (t s : Square) (i : Nat) : Prop :=
  ∃ look, (Look.order attacker)[i]? = some look ∧ b.Meets t look s

variable {b} {s s' t : Square} {attacker : Side} {a : Attack} {i j : Nat}

theorem AttackedFrom.isEmpty (h : b.AttackedFrom attacker t s) : (b.cell s).isEmpty = false :=
  Cell.isEmpty_of_occupant h.2.1

theorem AttackedFrom.exists_ranks (h : b.AttackedFrom attacker t s) :
    ∃ i, b.Ranks attacker t s i := by
  obtain ⟨-, look, hlook, hmeets⟩ := attackedFrom_iff_exists_meets.1 h
  obtain ⟨i, hi⟩ := List.mem_iff_getElem?.1 hlook
  exact ⟨i, look, hi, hmeets⟩

/-- A piece has one rank. -/
theorem Ranks.place_unique (h : b.Ranks attacker t s i) (h' : b.Ranks attacker t s j) : i = j := by
  obtain ⟨look, hi, hmeets⟩ := h
  obtain ⟨look', hj, hmeets'⟩ := h'
  obtain rfl : look = look' :=
    hmeets.look_unique hmeets' (List.mem_of_getElem? hi) (List.mem_of_getElem? hj)
  have hlt : i < (Look.order attacker).length := (List.getElem?_eq_some_iff.1 hi).1
  rw [← List.getElem?_inj hlt (Look.nodup_order attacker), hi, hj]

/-- No two pieces have the same rank. -/
theorem Ranks.square_unique (h : b.Ranks attacker t s i) (h' : b.Ranks attacker t s' i)
    (hpiece : (b.cell s).isEmpty = false) (hpiece' : (b.cell s').isEmpty = false) : s = s' := by
  obtain ⟨look, hi, hmeets⟩ := h
  obtain ⟨look', hi', hmeets'⟩ := h'
  rw [hi, Option.some.injEq] at hi'
  subst hi'
  exact hmeets.square_unique hmeets' hpiece hpiece'

/-- A pawn in a lower column ranks before one in a higher. -/
theorem Ranks.lt_of_pawns (h : b.Ranks attacker t s i) (h' : b.Ranks attacker t s' j)
    (hpawn : (b.cell s).kind = .pawn) (hpawn' : (b.cell s').kind = .pawn)
    (hcol : s.col < s'.col) : i < j := by
  obtain ⟨look, hi, hkind, k, hk, hle, hs, -⟩ := h
  obtain ⟨look', hj, hkind', k', hk', hle', hs', -⟩ := h'
  rw [hpawn] at hkind
  rw [hpawn'] at hkind'
  rw [Look.reach_of_pawn (List.mem_of_getElem? hi) hkind] at hle
  rw [Look.reach_of_pawn (List.mem_of_getElem? hj) hkind'] at hle'
  obtain rfl : k = 1 := Nat.le_antisymm hle hk
  obtain rfl : k' = 1 := Nat.le_antisymm hle' hk'
  rw [Offset.times_one, Square.offset_eq_some_iff] at hs hs'
  exact Look.place_lt_of_pawns hi hj hkind hkind' (by omega)

/-- **The piece that is named strikes the square, and each other that does ranks later.** -/
theorem ranks_of_attacker? (h : b.attacker? t attacker = some a) :
    a.side = attacker ∧ (b.cell a.origin).kind = a.kind ∧ b.AttackedFrom attacker t a.origin ∧
      ∀ s, b.AttackedFrom attacker t s → s ≠ a.origin →
        ∀ i j, b.Ranks attacker t a.origin i → b.Ranks attacker t s j → i < j := by
  rw [attacker?_eq_findSome?, findSome?_eq_some_iff_place] at h
  obtain ⟨i, look, hi, ha, hbefore⟩ := h
  obtain ⟨hside, hkind, howner, hmeets⟩ := look?_eq_some_iff.1 ha
  have hlook : look ∈ Look.order attacker := List.mem_of_getElem? hi
  refine ⟨hside, hkind, attackedFrom_iff_exists_meets.2 ⟨howner, look, hlook, hmeets⟩, ?_⟩
  intro s hs hne i' j hi' hj
  obtain rfl : i' = i := hi'.place_unique ⟨look, hi, hmeets⟩
  refine Nat.lt_of_le_of_ne (Nat.le_of_not_lt fun hlt => ?_) ?_
  · -- an earlier look would have found the other piece
    obtain ⟨look', hj', hmeets'⟩ := hj
    have hfound : b.look? t attacker look' = some ⟨(b.cell s).kind, attacker, s⟩ :=
      look?_eq_some_iff.2 ⟨rfl, rfl, hs.2.1, hmeets'⟩
    rw [hbefore j hlt look' hj'] at hfound
    cases hfound
  · rintro rfl
    exact hne (hj.square_unique hi' hs.isEmpty (Cell.isEmpty_of_occupant howner))

/-- **The attacker that is named is the first in the order of looking.**  Each piece that strikes
the square has one rank, and no other such piece has it; of pawns, the one in the lower column has
the lower rank.  An attack is named exactly if it is that of a piece of the side, of the kind that
stands there, which strikes the square, and all other such pieces rank later. -/
theorem attacker?_eq_some_iff_first (b : Board) (t : Square) (attacker : Side) :
    (∀ s, b.AttackedFrom attacker t s → ∃ i, ∀ j, b.Ranks attacker t s j ↔ j = i) ∧
    (∀ s s' i, b.AttackedFrom attacker t s → b.AttackedFrom attacker t s' →
      b.Ranks attacker t s i → b.Ranks attacker t s' i → s = s') ∧
    (∀ s s' i j, b.Ranks attacker t s i → b.Ranks attacker t s' j →
      (b.cell s).kind = .pawn → (b.cell s').kind = .pawn → s.col < s'.col → i < j) ∧
    ∀ a, b.attacker? t attacker = some a ↔
      a.side = attacker ∧ (b.cell a.origin).kind = a.kind ∧ b.AttackedFrom attacker t a.origin ∧
        ∀ s, b.AttackedFrom attacker t s → s ≠ a.origin →
          ∀ i j, b.Ranks attacker t a.origin i → b.Ranks attacker t s j → i < j := by
  refine ⟨?_, ?_, fun _ _ _ _ => Ranks.lt_of_pawns, fun a => ⟨ranks_of_attacker?, ?_⟩⟩
  · intro s hs
    obtain ⟨i, hi⟩ := hs.exists_ranks
    refine ⟨i, fun j => ⟨fun hj => hj.place_unique hi, ?_⟩⟩
    rintro rfl
    exact hi
  · intro s s' i hs hs' hi hi'
    exact hi.square_unique hi' hs.isEmpty hs'.isEmpty
  · intro h
    obtain ⟨hside, hkind, hs, hfirst⟩ := h
    have hattacked : b.isAttacked t attacker = true :=
      isAttacked_iff_exists_attackedFrom.2 ⟨a.origin, hs⟩
    obtain ⟨a', ha'⟩ := Option.isSome_iff_exists.1 hattacked
    obtain ⟨hside', hkind', hs', hfirst'⟩ := ranks_of_attacker? ha'
    -- two pieces that are both first are the same
    have horigin : a'.origin = a.origin := by
      obtain ⟨i, hi⟩ := hs.exists_ranks
      obtain ⟨j, hj⟩ := hs'.exists_ranks
      refine Decidable.byContradiction fun hne => ?_
      have hlt := hfirst a'.origin hs' hne i j hi hj
      have hlt' := hfirst' a.origin hs (Ne.symm hne) j i hj hi
      omega
    rw [ha', Option.some.injEq]
    rcases a with ⟨kind, side, origin⟩
    rcases a' with ⟨kind', side', origin'⟩
    simp only at hside hside' hkind hkind' horigin
    subst horigin hside
    rw [← hkind, ← hkind', hside']

/-- A king that five white pieces attack; a pawn on its row shields it on one side only, and some
of the jumps from its square leave the board. -/
def crowded : Board := ofCells <| Drawing.cell
  [".....N..", "Q..k.P..", "..P.P...", "........", "...R....", "........", "........", "........"]

/-- The queen is named, in the second direction of looking, as the first is blocked; the knight is
met by the last of the jumps, and the pawns after it. -/
theorem attacker?_eq_some_iff_first_crowded :
    crowded.attacker? ⟨1, 3⟩ .white = some ⟨.queen, .white, ⟨1, 0⟩⟩ ∧
    (∀ j, crowded.Ranks .white ⟨1, 3⟩ ⟨0, 5⟩ j ↔ j = 15) ∧
    (∀ i, crowded.Ranks .white ⟨1, 3⟩ ⟨0, 5⟩ i → ¬ crowded.Ranks .white ⟨1, 3⟩ ⟨2, 4⟩ i) ∧
    (∀ i j, crowded.Ranks .white ⟨1, 3⟩ ⟨2, 2⟩ i → crowded.Ranks .white ⟨1, 3⟩ ⟨2, 4⟩ j → i < j) ∧
    ∀ i j, crowded.Ranks .white ⟨1, 3⟩ ⟨1, 0⟩ i → crowded.Ranks .white ⟨1, 3⟩ ⟨0, 5⟩ j → i < j := by
  obtain ⟨hone, hnone, hpawns, hnamed⟩ := attacker?_eq_some_iff_first crowded ⟨1, 3⟩ .white
  have hknight : crowded.AttackedFrom .white ⟨1, 3⟩ ⟨0, 5⟩ :=
    ⟨by decide, by decide +kernel, .jump (by decide +kernel) (.inl ⟨rfl, rfl⟩)⟩
  have hpawn : crowded.AttackedFrom .white ⟨1, 3⟩ ⟨2, 4⟩ :=
    ⟨by decide, by decide +kernel, .whitePawn (by decide +kernel) rfl rfl⟩
  have hqueen : crowded.attacker? ⟨1, 3⟩ .white = some ⟨.queen, .white, ⟨1, 0⟩⟩ := by
    decide +kernel
  have hrank : crowded.Ranks .white ⟨1, 3⟩ ⟨0, 5⟩ 15 :=
    ⟨.leap .knight ⟨-1, 2⟩, by decide, by decide +kernel, 1, by decide, by decide, by decide,
      fun j hj hlt => by omega⟩
  obtain ⟨i, hi⟩ := hone _ hknight
  obtain rfl : 15 = i := (hi 15).1 hrank
  refine ⟨hqueen, hi, fun i hi hi' => ?_, fun i j hi hj => ?_,
    ((hnamed _).1 hqueen).2.2.2 _ hknight (by decide)⟩
  · have hsame := hnone _ _ i hknight hpawn hi hi'
    exact absurd hsame (by decide)
  · exact hpawns _ _ i j hi hj (by decide +kernel) (by decide +kernel) (by decide)

end KingCheck.Board
