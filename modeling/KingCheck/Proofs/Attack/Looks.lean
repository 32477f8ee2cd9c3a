import KingCheck.Proofs.Attack.Strikes
import KingCheck.Proofs.Search
import Mathlib.Logic.Basic

/-!
# The looks of a search

The search for an attacker is four searches one after the other, along lines and at single squares.
It is one search through a list of looks: a look goes from the square outward in one direction, a
leap one step and a line to the edge of the board, and stops at the first piece.  `Look.order` lists
the looks in the order of the search.  Each piece that strikes the square is met by a look of the
list, and by no other (`attackedFrom_iff_exists_meets`, `Meets.look_unique`), and a look meets one
piece at most (`Meets.square_unique`).
-/
namespace KingCheck

/-- A look outward from a square: a direction, the number of steps that it goes, and the kinds of
pieces that strike from where it ends. -/
structure Look where
  direction : Offset
  reach : Nat
  kinds : List Kind
deriving DecidableEq

namespace Look

/-- A look along a line, for kinds that slide. -/
def line (sliders : List Kind) (d : Offset) : Look := ⟨d, boardSize - 1, sliders⟩

/-- A look at one square, for a kind that does not slide. -/
def leap (kind : Kind) (d : Offset) : Look := ⟨d, 1, [kind]⟩

/-- The looks in the order of the search: rows and columns, then diagonals, then the jumps of
knights, then the two squares of pawns, each in the order of its list of offsets. -/
def order (attacker : Side) : List Look :=
  orthogonals.map (line [.rook, .queen]) ++ diagonals.map (line [.bishop, .queen]) ++
    knightJumps.map (leap .knight) ++ (pawnOrigins attacker).map (leap .pawn)

theorem nodup_order (attacker : Side) : (order attacker).Nodup := by
  cases attacker <;> decide

/-- A look that goes farther than one step follows a line. -/
theorem reach_or_direction_of_mem_order {attacker : Side} {look : Look}
    (h : look ∈ order attacker) :
    look.reach = 1 ∨ look.direction ∈ orthogonals ++ diagonals := by
  have hall : ∀ look ∈ order attacker,
      look.reach = 1 ∨ look.direction ∈ orthogonals ++ diagonals := by
    cases attacker <;> decide
  exact hall look h

/-- Looks for the same kind go equally far, in different directions. -/
theorem reach_eq_of_mem_kinds {attacker : Side} {look look' : Look} {kind : Kind}
    (h : look ∈ order attacker) (h' : look' ∈ order attacker) (hk : kind ∈ look.kinds)
    (hk' : kind ∈ look'.kinds) :
    look.reach = look'.reach ∧ (look.direction = look'.direction → look = look') := by
  have hall : ∀ look ∈ order attacker, ∀ look' ∈ order attacker, ∀ kind ∈ look.kinds,
      kind ∈ look'.kinds →
        look.reach = look'.reach ∧ (look.direction = look'.direction → look = look') := by
    cases attacker <;> decide +kernel
  exact hall look h look' h' kind hk hk'

/-- Of the looks for pawns the one to the lower column comes first. -/
theorem place_lt_of_pawns {attacker : Side} {look look' : Look} {i j : Nat}
    (h : (order attacker)[i]? = some look) (h' : (order attacker)[j]? = some look')
    (hk : .pawn ∈ look.kinds) (hk' : .pawn ∈ look'.kinds)
    (hcols : look.direction.cols < look'.direction.cols) : i < j := by
  have hall : ∀ p ∈ (order attacker).zipIdx, ∀ p' ∈ (order attacker).zipIdx,
      .pawn ∈ p.1.kinds → .pawn ∈ p'.1.kinds → p.1.direction.cols < p'.1.direction.cols →
        p.2 < p'.2 := by
    cases attacker <;> decide +kernel
  exact hall (look, i) (List.mk_mem_zipIdx_iff_getElem?.2 h) (look', j)
    (List.mk_mem_zipIdx_iff_getElem?.2 h') hk hk' hcols

/-- A look for pawns goes one step. -/
theorem reach_of_pawn {attacker : Side} {look : Look} (h : look ∈ order attacker)
    (hk : .pawn ∈ look.kinds) : look.reach = 1 := by
  have hall : ∀ look ∈ order attacker, .pawn ∈ look.kinds → look.reach = 1 := by
    cases attacker <;> decide
  exact hall look h hk

end Look

namespace Square

variable {s t : Square} {d : Offset} {k : Nat}

/-- On a line the direction to a square is told by the signs of the differences. -/
theorem direction_eq (hd : d ∈ orthogonals ++ diagonals) (hk : 0 < k)
    (hs : t.offset (d.times k) = some s) :
    d = ⟨((s.row.val : Int) - t.row.val).sign, ((s.col.val : Int) - t.col.val).sign⟩ := by
  have hunit : ∀ d ∈ orthogonals ++ diagonals, d.rows.sign = d.rows ∧ d.cols.sign = d.cols := by
    decide
  have hsign : (k : Int).sign = 1 := Int.sign_eq_one_of_pos (by omega)
  obtain ⟨hrow, hcol⟩ := offset_eq_some_iff.1 hs
  have hrow' : (s.row.val : Int) - t.row.val = k * d.rows := by
    rw [hrow, Offset.rows_times]
    omega
  have hcol' : (s.col.val : Int) - t.col.val = k * d.cols := by
    rw [hcol, Offset.cols_times]
    omega
  rw [hrow', hcol', Int.sign_mul, Int.sign_mul, hsign, (hunit d hd).1, (hunit d hd).2, Int.one_mul,
    Int.one_mul]

/-- A step leads to a square by one offset. -/
theorem offset_unique {d' : Offset} (h : t.offset d = some s) (h' : t.offset d' = some s) :
    d = d' := by
  obtain ⟨hrow, hcol⟩ := offset_eq_some_iff.1 h
  obtain ⟨hrow', hcol'⟩ := offset_eq_some_iff.1 h'
  rcases d with ⟨rows, cols⟩
  rcases d' with ⟨rows', cols'⟩
  simp only [Offset.mk.injEq] at *
  omega

end Square

namespace Board

variable (b : Board)

/-- A look from `t` goes over `s`, which is as many steps away as the look goes at most, with
nothing before it. -/
def Passes (t : Square) (look : Look) (s : Square) : Prop :=
  ∃ k, 0 < k ∧ k ≤ look.reach ∧ t.offset (look.direction.times k) = some s ∧
    b.OpenTo t look.direction k

/-- A look from `t` meets the piece on `s`: it is of one of the kinds, and so many steps away as the
look goes, with nothing before it. -/
def Meets (t : Square) (look : Look) (s : Square) : Prop :=
  (b.cell s).kind ∈ look.kinds ∧ ∃ k, 0 < k ∧ k ≤ look.reach ∧
    t.offset (look.direction.times k) = some s ∧ b.OpenTo t look.direction k

/-- A piece of the attacker, on another square, strikes `t`. -/
def AttackedFrom (attacker : Side) (t s : Square) : Prop :=
  s ≠ t ∧ (b.cell s).occupant = some attacker ∧ b.Strikes s t

/-- The attack that a look finds. -/
def look? (t : Square) (attacker : Side) (look : Look) : Option Attack :=
  (upTo (fun s => !(b.cell s).isEmpty) (Square.walk look.direction look.reach t)).findSome?
    (b.attackFrom? attacker look.kinds)

variable {b} {s s' t : Square} {attacker : Side} {look look' : Look}

theorem look?_leap (kind : Kind) (d : Offset) :
    b.look? t attacker (.leap kind d) = (t.offset d).bind (b.attackFrom? attacker [kind]) := by
  simp only [look?, Look.leap, Square.walk]
  cases t.offset d with
  | none => rfl
  | some s => cases h : !(b.cell s).isEmpty <;> simp [upTo, h]

/-- The search along lines is one through the looks along them. -/
theorem lineAttack?_eq_findSome? (directions : List Offset) (sliders : List Kind) :
    b.lineAttack? t attacker directions sliders =
      directions.findSome? fun d => b.look? t attacker (.line sliders d) := rfl

/-- **The four searches are one search through the looks.** -/
theorem attacker?_eq_findSome? :
    b.attacker? t attacker = (Look.order attacker).findSome? (b.look? t attacker) := by
  have hleap : ∀ offsets kind, b.leapAttack? t attacker offsets kind =
      (offsets.map (Look.leap kind)).findSome? (b.look? t attacker) := by
    intro offsets kind
    rw [List.findSome?_map, leapAttack?]
    congr 1
    funext d
    exact (look?_leap kind d).symm
  have hline : ∀ directions sliders, b.lineAttack? t attacker directions sliders =
      (directions.map (Look.line sliders)).findSome? (b.look? t attacker) := by
    intro directions sliders
    rw [List.findSome?_map, lineAttack?_eq_findSome?]
    rfl
  simp only [attacker?, Look.order, List.findSome?_append, ← hleap, ← hline,
    Option.orElse_eq_orElse, Option.orElse_eq_or, Option.or_assoc]

/-- A look meets one piece at most. -/
theorem Meets.square_unique (h : b.Meets t look s) (h' : b.Meets t look s')
    (hpiece : (b.cell s).isEmpty = false) (hpiece' : (b.cell s').isEmpty = false) : s = s' := by
  obtain ⟨-, k, hk, -, hs, hopen⟩ := h
  obtain ⟨-, k', hk', -, hs', hopen'⟩ := h'
  exact hopen.unique hk hk' hs hs' hopen' hpiece hpiece'

/-- **A look finds the piece of the attacker that it meets.** -/
theorem look?_eq_some_iff {a : Attack} :
    b.look? t attacker look = some a ↔
      a.side = attacker ∧ (b.cell a.origin).kind = a.kind ∧
        (b.cell a.origin).occupant = some attacker ∧ b.Meets t look a.origin := by
  constructor
  · intro h
    obtain ⟨s, hs, ha⟩ := List.exists_of_findSome?_eq_some h
    obtain ⟨hpiece, rfl⟩ := b.attackFrom?_eq_some_iff.1 ha
    obtain ⟨hside, hkind⟩ := Cell.isOneOf_eq_true_iff.1 hpiece
    exact ⟨rfl, rfl, hside, hkind, b.mem_upTo_walk_iff.1 hs⟩
  · intro h
    obtain ⟨rfl, hkind, hside, hmeets⟩ := h
    have hpiece : (b.cell a.origin).isOneOf a.side look.kinds = true :=
      Cell.isOneOf_eq_true_iff.2 ⟨hside, hmeets.1⟩
    refine findSome?_eq_some_of_unique (b.mem_upTo_walk_iff.2 hmeets.2)
      (b.attackFrom?_eq_some_iff.2 ⟨hpiece, by rw [hkind]⟩) ?_
    intro s hs a' ha'
    obtain ⟨hpiece', rfl⟩ := b.attackFrom?_eq_some_iff.1 ha'
    obtain ⟨hside', hkind'⟩ := Cell.isOneOf_eq_true_iff.1 hpiece'
    have hmeets' : b.Meets t look s := ⟨hkind', b.mem_upTo_walk_iff.1 hs⟩
    obtain rfl : a.origin = s := hmeets.square_unique hmeets'
      (Cell.isEmpty_of_occupant hside) (Cell.isEmpty_of_occupant hside')
    rw [hkind]

/-- A piece is met by one look at most. -/
theorem Meets.look_unique (h : b.Meets t look s) (h' : b.Meets t look' s)
    (hmem : look ∈ Look.order attacker) (hmem' : look' ∈ Look.order attacker) : look = look' := by
  obtain ⟨hkind, k, hk, hle, hs, -⟩ := h
  obtain ⟨hkind', k', hk', hle', hs', -⟩ := h'
  obtain ⟨hreach, heq⟩ := Look.reach_eq_of_mem_kinds hmem hmem' hkind hkind'
  apply heq
  by_cases hone : look.reach = 1
  · obtain rfl : k = 1 := by omega
    obtain rfl : k' = 1 := by omega
    rw [Offset.times_one] at hs hs'
    exact Square.offset_unique hs hs'
  · have hline := (Look.reach_or_direction_of_mem_order hmem).resolve_left hone
    have hline' := (Look.reach_or_direction_of_mem_order hmem').resolve_left (hreach ▸ hone)
    rw [Square.direction_eq hline hk hs, Square.direction_eq hline' hk' hs']

/-- Of looks for the same kinds one meets a piece exactly if the piece is of one of these and a look
goes over its square. -/
theorem exists_meets_iff_passes {offsets : List Offset} {kinds : List Kind} (looks : Offset → Look)
    (hkinds : ∀ d, (looks d).kinds = kinds) :
    (∃ d ∈ offsets, b.Meets t (looks d) s) ↔
      (b.cell s).kind ∈ kinds ∧ ∃ d ∈ offsets, b.Passes t (looks d) s := by
  constructor
  · intro h
    obtain ⟨d, hmem, hkind, hpasses⟩ := h
    exact ⟨hkinds d ▸ hkind, d, hmem, hpasses⟩
  · intro h
    obtain ⟨hkind, d, hmem, hpasses⟩ := h
    exact ⟨d, hmem, (hkinds d).symm ▸ hkind, hpasses⟩

/-- A look along a line goes over every square that is at a multiple of the direction, with nothing
before it. -/
theorem passes_line_iff {sliders : List Kind} {d : Offset} (hd : d ≠ ⟨0, 0⟩) :
    b.Passes t (.line sliders d) s ↔
      ∃ k, 0 < k ∧ t.offset (d.times k) = some s ∧ b.OpenTo t d k := by
  constructor
  · intro h
    obtain ⟨k, hk, -, hs, hopen⟩ := h
    exact ⟨k, hk, hs, hopen⟩
  · intro h
    obtain ⟨k, hk, hs, hopen⟩ := h
    refine ⟨k, hk, Nat.le_of_not_lt fun hfar => ?_, hs, hopen⟩
    have hnone : t.offset (d.times k) = none := Square.offset_times_eq_none hd hfar
    rw [hs] at hnone
    cases hnone

/-- Looks along lines go over the squares at the end of an open line; `line` says by coordinates
which squares the directions lead to. -/
theorem exists_passes_line_iff {directions : List Offset} {sliders : List Kind}
    {line : Square → Prop} (hd : ∀ d ∈ directions, d ∈ orthogonals ++ diagonals)
    (hline : ∀ s, (∃ d ∈ directions, ∃ k, 0 < k ∧ t.offset (d.times k) = some s) ↔ s ≠ t ∧ line s) :
    (∃ d ∈ directions, b.Passes t (.line sliders d) s) ↔ s ≠ t ∧ line s ∧ b.Clear s t := by
  constructor
  · intro h
    obtain ⟨d, hmem, k, hk, -, hs, hopen⟩ := h
    obtain ⟨hne, hon⟩ := (hline s).1 ⟨d, hmem, k, hk, hs⟩
    exact ⟨hne, hon, (openTo_iff_clear (hd d hmem) hs).1 hopen⟩
  · intro h
    obtain ⟨hne, hon, hclear⟩ := h
    obtain ⟨d, hmem, k, hk, hs⟩ := (hline s).2 ⟨hne, hon⟩
    exact ⟨d, hmem, (passes_line_iff (ne_zero_of_mem_directions (hd d hmem))).2
      ⟨k, hk, hs, (openTo_iff_clear (hd d hmem) hs).2 hclear⟩⟩

/-- A leap goes over the square that it leads to. -/
theorem passes_leap_iff {kind : Kind} {d : Offset} :
    b.Passes t (.leap kind d) s ↔ t.offset d = some s := by
  constructor
  · intro h
    obtain ⟨k, hk, hle, hs, -⟩ := h
    obtain rfl : k = 1 := Nat.le_antisymm hle hk
    rwa [Look.leap, Offset.times_one] at hs
  · intro h
    refine ⟨1, by omega, Nat.le_refl 1, ?_, ?_⟩
    · rwa [Look.leap, Offset.times_one]
    · intro j hj hlt
      omega

/-- Looks along lines meet the pieces at the end of an open line. -/
theorem exists_meets_line_iff {directions : List Offset} {sliders : List Kind}
    {line : Square → Prop} (hd : ∀ d ∈ directions, d ∈ orthogonals ++ diagonals)
    (hline : ∀ s, (∃ d ∈ directions, ∃ k, 0 < k ∧ t.offset (d.times k) = some s) ↔ s ≠ t ∧ line s) :
    (∃ d ∈ directions, b.Meets t (.line sliders d) s) ↔
      s ≠ t ∧ (b.cell s).kind ∈ sliders ∧ line s ∧ b.Clear s t := by
  rw [exists_meets_iff_passes (.line sliders) fun _ => rfl, exists_passes_line_iff hd hline,
    and_left_comm]

/-- Leaps meet the pieces at the given offsets. -/
theorem exists_meets_leap_iff {offsets : List Offset} {kind : Kind} :
    (∃ d ∈ offsets, b.Meets t (.leap kind d) s) ↔
      (b.cell s).kind = kind ∧ ∃ d ∈ offsets, t.offset d = some s := by
  rw [exists_meets_iff_passes (.leap kind) fun _ => rfl, List.mem_singleton]
  simp only [passes_leap_iff]

/-- The looks by the parts of their list. -/
theorem exists_order_iff {P : Look → Prop} :
    (∃ look ∈ Look.order attacker, P look) ↔
      (∃ d ∈ orthogonals, P (.line [.rook, .queen] d)) ∨
      (∃ d ∈ diagonals, P (.line [.bishop, .queen] d)) ∨
      (∃ d ∈ knightJumps, P (.leap .knight d)) ∨
      ∃ d ∈ pawnOrigins attacker, P (.leap .pawn d) := by
  simp only [Look.order, List.mem_append, or_and_right, exists_or, List.mem_map,
    exists_exists_and_eq_and, or_assoc]

/-- **A piece strikes a square exactly if one of the looks meets it.** -/
theorem attackedFrom_iff_exists_meets :
    b.AttackedFrom attacker t s ↔
      (b.cell s).occupant = some attacker ∧ ∃ look ∈ Look.order attacker, b.Meets t look s := by
  rw [exists_order_iff,
    exists_meets_line_iff (fun d hd => List.mem_append_left _ hd)
      (fun _ => Square.exists_orthogonal_iff),
    exists_meets_line_iff (fun d hd => List.mem_append_right _ hd)
      (fun _ => Square.exists_diagonal_iff),
    exists_meets_leap_iff, exists_meets_leap_iff, Square.exists_knightJump_iff,
    Square.exists_pawnOrigin_iff]
  simp only [List.mem_cons, List.not_mem_nil, or_false]
  constructor
  · intro h
    obtain ⟨hne, hside, hstrikes⟩ := h
    refine ⟨hside, ?_⟩
    cases hstrikes with
    | straight hkind hline hclear => exact .inl ⟨hne, hkind, hline, hclear⟩
    | diagonal hkind hline hclear => exact .inr (.inl ⟨hne, hkind, hline, hclear⟩)
    | jump hkind hmove => exact .inr (.inr (.inl ⟨hkind, hmove⟩))
    | whitePawn hcell hrow hcol =>
      obtain rfl : attacker = .white := eq_of_pawn hcell hside
      refine .inr (.inr (.inr ⟨by rw [hcell], ?_, hcol⟩))
      rw [Side.pawnAdvance]
      omega
    | blackPawn hcell hrow hcol =>
      obtain rfl : attacker = .black := eq_of_pawn hcell hside
      refine .inr (.inr (.inr ⟨by rw [hcell], ?_, hcol⟩))
      rw [Side.pawnAdvance]
      omega
  · intro h
    obtain ⟨hside, ⟨hne, hkind, hline, hclear⟩ | ⟨hne, hkind, hline, hclear⟩ | ⟨hkind, hmove⟩ |
      ⟨hkind, hrow, hcol⟩⟩ := h
    · exact ⟨hne, hside, .straight hkind hline hclear⟩
    · exact ⟨hne, hside, .diagonal hkind hline hclear⟩
    · refine ⟨?_, hside, .jump hkind hmove⟩
      intro heq
      simp [heq, Square.KnightMove, Square.rowGap] at hmove
    · refine ⟨?_, hside, .of_pawn hside hkind hrow hcol⟩
      intro heq
      simp [heq, Square.colGap] at hcol

end Board
end KingCheck
