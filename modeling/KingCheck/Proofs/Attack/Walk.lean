import KingCheck.Board.Rows
import KingCheck.Proofs.Attack.Looks

/-!
# Walking along a line

A search along a line takes one step after another, and nothing counts them: it goes on until a
step leaves the board or comes to a piece (`Board.Visits`).  A step adds to each coordinate in a
signed byte.  As long as the direction is not zero, the walk comes to an end, since eight steps
leave the board, and what it visits is the line of sight (`Board.visits_iff`).  A search in several
directions answers the piece of the first one in which such a walk ends at a piece that slides there
(`Board.lineAttack?_walk`).
-/
namespace KingCheck

/-- Neither component of the offset is farther from zero than `n`. -/
def Offset.Within (n : Nat) (d : Offset) : Prop := d.rows.natAbs ≤ n ∧ d.cols.natAbs ≤ n

instance (n : Nat) (d : Offset) : Decidable (d.Within n) := inferInstanceAs (Decidable (_ ∧ _))

namespace Square

variable {s : Square} {d : Offset}

/-- The row after a step, as a sum of signed bytes. -/
def rowByte (s : Square) (d : Offset) : Int8 := Int8.ofNat s.row.val + Int8.ofInt d.rows

/-- The column after a step, as a sum of signed bytes. -/
def colByte (s : Square) (d : Offset) : Int8 := Int8.ofNat s.col.val + Int8.ofInt d.cols

/-- The square an offset away, reckoned in bytes: sums that are not negative are read as unsigned
bytes. -/
def offsetInBytes (s : Square) (d : Offset) : Option Square :=
  if s.rowByte d < 0 ∨ s.colByte d < 0 then none
  else at? (s.rowByte d).toUInt8.toNat (s.colByte d).toUInt8.toNat

/-- A coordinate and a number of at most 120 have a sum that fits a signed byte. -/
theorem toInt_byteSum {n : Nat} {x : Int} (hn : n < boardSize) (hx : x.natAbs ≤ 120) :
    (Int8.ofNat n + Int8.ofInt x).toInt = n + x := by
  simp only [boardSize] at hn
  rw [Int8.toInt_add, Int8.toInt_ofNat_of_lt (by omega),
    Int8.toInt_ofInt_of_le (by omega) (by omega)]
  exact Int.bmod_eq_of_le (by omega) (by omega)

theorem toInt_rowByte (h : d.Within 120) : (s.rowByte d).toInt = s.row.val + d.rows :=
  toInt_byteSum s.row.isLt h.1

theorem toInt_colByte (h : d.Within 120) : (s.colByte d).toInt = s.col.val + d.cols :=
  toInt_byteSum s.col.isLt h.2

/-- A signed byte that is not negative stays the same as an unsigned one. -/
theorem toNat_toUInt8_of_toInt_eq {x : Int8} {n : Int} (hx : x.toInt = n) (hn : 0 ≤ n) :
    x.toUInt8.toNat = n.toNat := by
  have hnonneg : 0 ≤ x := by rwa [Int8.le_iff_toInt_le, Int8.toInt_zero, hx]
  rw [Int8.toNat_toUInt8_of_le hnonneg, ← Int8.toNat_toInt, hx]

/-- The bytes that a step leads to by are coordinates. -/
theorem bytes_of_offsetInBytes {next : Square} (h : s.offsetInBytes d = some next) :
    (s.rowByte d).toUInt8.toNat = next.row.val ∧ (s.colByte d).toUInt8.toNat = next.col.val := by
  rw [offsetInBytes] at h
  split at h
  · cases h
  · obtain ⟨hrow, hcol⟩ := at?_eq_some_iff.1 h
    exact ⟨hrow.symm, hcol.symm⟩

/-- **Reckoned in bytes a step leads to the same square.** -/
theorem offsetInBytes_eq (h : d.Within 120) : s.offsetInBytes d = s.offset d := by
  simp only [offsetInBytes, offset, Int8.lt_iff_toInt_lt, Int8.toInt_zero, toInt_rowByte h,
    toInt_colByte h]
  by_cases hon : 0 ≤ (s.row.val : Int) + d.rows ∧ 0 ≤ (s.col.val : Int) + d.cols
  · rw [if_neg (by omega), if_pos hon, toNat_toUInt8_of_toInt_eq (toInt_rowByte h) hon.1,
      toNat_toUInt8_of_toInt_eq (toInt_colByte h) hon.2]
  · rw [if_pos (by omega), if_neg hon]

end Square

namespace Board

/-- The squares that are visited from a square on, one step after another, with no bound on the
steps: up to the first that is occupied, or until the next step leaves the board. -/
inductive Visits (b : Board) (d : Offset) : Square → List Square → Prop where
  | edge {s : Square} (hstep : s.offsetInBytes d = none) : Visits b d s []
  | piece {s next : Square} (hstep : s.offsetInBytes d = some next)
      (hpiece : (b.cell next).isEmpty = false) : Visits b d s [next]
  | vacant {s next : Square} {rest : List Square} (hstep : s.offsetInBytes d = some next)
      (hvacant : (b.cell next).isEmpty = true) (hrest : Visits b d next rest) :
      Visits b d s (next :: rest)

variable {b : Board} {t s : Square} {d : Offset} {visited visited' : List Square}
  {attacker : Side} {sliders : List Kind}

/-- A walk has one course only. -/
theorem Visits.unique (h : b.Visits d t visited) (h' : b.Visits d t visited') :
    visited = visited' := by
  induction h generalizing visited' with
  | edge hstep =>
    cases h' with
    | edge => rfl
    | piece hstep' | vacant hstep' => simp [hstep] at hstep'
  | piece hstep hpiece =>
    cases h' with
    | edge hstep' => simp [hstep] at hstep'
    | piece hstep' =>
      rw [hstep] at hstep'
      rw [Option.some.inj hstep']
    | vacant hstep' hvacant =>
      rw [hstep] at hstep'
      rw [← Option.some.inj hstep', hpiece] at hvacant
      cases hvacant
  | vacant hstep hvacant _ ih =>
    cases h' with
    | edge hstep' => simp [hstep] at hstep'
    | piece hstep' hpiece =>
      rw [hstep] at hstep'
      rw [← Option.some.inj hstep', hvacant] at hpiece
      cases hpiece
    | vacant hstep' _ hrest' =>
      rw [hstep] at hstep'
      obtain rfl := Option.some.inj hstep'
      rw [ih hrest']

/-- A walk of which the step behind the `n`-th leaves the board visits what a walk of `n` steps
does. -/
theorem visits_upTo_walk (hd : d.Within 120) {n : Nat} (h : t.offset (d.times (n + 1)) = none) :
    b.Visits d t (upTo (fun s => !(b.cell s).isEmpty) (Square.walk d n t)) := by
  induction n generalizing t with
  | zero =>
    rw [Offset.times_one] at h
    exact .edge ((Square.offsetInBytes_eq hd).trans h)
  | succ n ih =>
    rw [Square.walk]
    cases hnext : t.offset d with
    | none => exact .edge ((Square.offsetInBytes_eq hd).trans hnext)
    | some next =>
      have hstep : t.offsetInBytes d = some next := (Square.offsetInBytes_eq hd).trans hnext
      rw [← Square.offset_times_succ hnext] at h
      cases hempty : (b.cell next).isEmpty with
      | false => simpa [upTo, hempty] using Visits.piece hstep hempty
      | true => simpa [upTo, hempty] using Visits.vacant hstep hempty (ih h)

/-- **A walk in a direction that is not zero comes to an end, and visits the line of sight.** -/
theorem visits_iff (hzero : d ≠ ⟨0, 0⟩) (hd : d.Within 120) :
    b.Visits d t visited ↔ visited = b.sightline t d := by
  have hvisits : b.Visits d t (b.sightline t d) :=
    visits_upTo_walk hd (Square.offset_times_eq_none hzero (by decide))
  constructor
  · intro h
    exact h.unique hvisits
  · rintro rfl
    exact hvisits

/-- What a walk from a square in one direction comes to. -/
structure Course (b : Board) (t : Square) (d : Offset) (visited : List Square) : Prop where
  /-- It comes to an end, having visited these squares and no others. -/
  ends : ∀ visited', b.Visits d t visited' ↔ visited' = visited
  /-- They are the squares at the multiples of the direction, the nearest first, as long as these
  are on the board and there is no piece before. -/
  places : ∀ i s, visited[i]? = some s ↔
    t.offset (d.times (i + 1)) = some s ∧ b.OpenTo t d (i + 1)
  length_le : visited.length ≤ boardSize - 1
  /-- The sums of a step are those of the numbers: no byte overflows. -/
  sums : ∀ s ∈ t :: visited,
    (s.rowByte d).toInt = s.row.val + d.rows ∧ (s.colByte d).toInt = s.col.val + d.cols
  /-- The bytes by which a cell is looked up after a step are those of a row and a column. -/
  bounds : ∀ s ∈ t :: visited, ∀ next, s.offsetInBytes d = some next →
    (s.rowByte d).toUInt8.toNat < boardSize ∧ (s.colByte d).toUInt8.toNat < boardSize

theorem course_sightline (hzero : d ≠ ⟨0, 0⟩) (hd : d.Within 120) :
    b.Course t d (b.sightline t d) where
  ends _ := visits_iff hzero hd
  places _ _ := b.getElem?_sightline_eq_some_iff hzero
  length_le := by
    -- a square at the eighth place would be eight steps away
    refine Nat.le_of_not_lt fun hlong => ?_
    have hlast := (b.getElem?_sightline_eq_some_iff hzero).1 (List.getElem?_eq_getElem hlong)
    have hnone : t.offset (d.times (boardSize - 1 + 1)) = none :=
      Square.offset_times_eq_none hzero (by decide)
    rw [hnone] at hlast
    cases hlast.1
  sums _ _ := ⟨Square.toInt_rowByte hd, Square.toInt_colByte hd⟩
  bounds s _ next hnext := by
    obtain ⟨hrow, hcol⟩ := Square.bytes_of_offsetInBytes hnext
    exact ⟨hrow ▸ next.row.isLt, hcol ▸ next.col.isLt⟩

/-- The first piece from `t` in a direction stands on `s`, belongs to the attacker and is of one of
the kinds. -/
def Finds (b : Board) (attacker : Side) (sliders : List Kind) (t : Square) (d : Offset)
    (s : Square) : Prop :=
  (b.cell s).occupant = some attacker ∧ (b.cell s).kind ∈ sliders ∧
    ∃ k, 0 < k ∧ t.offset (d.times k) = some s ∧ b.OpenTo t d k

/-- A look along a line finds the first piece in its direction, if that is one to find. -/
theorem look?_line_eq_some_iff (hzero : d ≠ ⟨0, 0⟩) {a : Attack} :
    b.look? t attacker (.line sliders d) = some a ↔
      a.side = attacker ∧ (b.cell a.origin).kind = a.kind ∧
        b.Finds attacker sliders t d a.origin := by
  have hpasses : b.Passes t (.line sliders d) a.origin ↔ _ := passes_line_iff hzero
  rw [look?_eq_some_iff, Finds, ← hpasses]
  rfl

theorem look?_line_eq_none_iff (hzero : d ≠ ⟨0, 0⟩) :
    b.look? t attacker (.line sliders d) = none ↔ ∀ s, ¬ b.Finds attacker sliders t d s := by
  rw [Option.eq_none_iff_forall_ne_some]
  constructor
  · intro h s hs
    exact h ⟨(b.cell s).kind, attacker, s⟩ ((look?_line_eq_some_iff hzero).2 ⟨rfl, rfl, hs⟩)
  · intro h a ha
    exact h a.origin ((look?_line_eq_some_iff hzero).1 ha).2.2

/-- **A search along lines walks in each direction to the first piece, and answers the first that is
one to find.**  Whatever the directions are, as long as none is zero and steps are at most 120, a
walk visits the squares at the multiples of its direction in their order, seven at most; no byte
overflows and no cell is looked up that is not there.  The answer is the piece found in the first
direction that has one, in the order of the list, and there is none exactly if no direction has. -/
theorem lineAttack?_walk {directions : List Offset}
    (h : ∀ d ∈ directions, d ≠ ⟨0, 0⟩ ∧ d.Within 120) :
    (∀ d ∈ directions, b.Course t d (b.sightline t d)) ∧
    (∀ a, b.lineAttack? t attacker directions sliders = some a ↔
      a.side = attacker ∧ (b.cell a.origin).kind = a.kind ∧
        ∃ (i : Nat) (d : Offset), directions[i]? = some d ∧ b.Finds attacker sliders t d a.origin ∧
          ∀ j < i, ∀ d', directions[j]? = some d' → ∀ s, ¬ b.Finds attacker sliders t d' s) ∧
    (b.lineAttack? t attacker directions sliders = none ↔
      ∀ d ∈ directions, ∀ s, ¬ b.Finds attacker sliders t d s) := by
  have hzero : ∀ d ∈ directions, d ≠ ⟨0, 0⟩ := fun d hd => (h d hd).1
  rw [lineAttack?_eq_findSome?]
  refine ⟨fun d hd => course_sightline (hzero d hd) (h d hd).2, fun a => ?_, ?_⟩
  · rw [findSome?_eq_some_iff_place]
    constructor
    · intro hfound
      obtain ⟨i, d, hi, ha, hbefore⟩ := hfound
      obtain ⟨hside, hkind, hfinds⟩ :=
        (look?_line_eq_some_iff (hzero d (List.mem_of_getElem? hi))).1 ha
      refine ⟨hside, hkind, i, d, hi, hfinds, fun j hj d' hd' => ?_⟩
      exact (look?_line_eq_none_iff (hzero d' (List.mem_of_getElem? hd'))).1 (hbefore j hj d' hd')
    · intro hfirst
      obtain ⟨hside, hkind, i, d, hi, hfinds, hbefore⟩ := hfirst
      refine ⟨i, d, hi, (look?_line_eq_some_iff (hzero d (List.mem_of_getElem? hi))).2
        ⟨hside, hkind, hfinds⟩, fun j hj d' hd' => ?_⟩
      exact (look?_line_eq_none_iff (hzero d' (List.mem_of_getElem? hd'))).2 (hbefore j hj d' hd')
  · rw [List.findSome?_eq_none_iff]
    exact forall₂_congr fun d hd => look?_line_eq_none_iff (hzero d hd)

/-- Steps of several squares; the first leaves the board from everywhere. -/
def strides : List Offset := [⟨-120, 7⟩, ⟨0, 2⟩, ⟨-2, 1⟩, ⟨-7, 7⟩]

/-- A board on which such steps from a corner come to a white rook before a black queen, to a black
pawn before a black queen, and to a black queen. -/
def hurdles : Board := ofCells <| Drawing.cell
  [".......q", "...q....", "........", "..p.....", "........", "........", "........", "...bR.q."]

/-- The queen in the last direction is named, since the walks before it end at other pieces. -/
theorem lineAttack?_walk_hurdles :
    (∀ d ∈ strides, d ≠ ⟨0, 0⟩ ∧ d.Within 120) ∧
    hurdles.Course ⟨7, 0⟩ ⟨-120, 7⟩ [] ∧ hurdles.Course ⟨7, 0⟩ ⟨0, 2⟩ [⟨7, 2⟩, ⟨7, 4⟩] ∧
    hurdles.Course ⟨7, 0⟩ ⟨-2, 1⟩ [⟨5, 1⟩, ⟨3, 2⟩] ∧ hurdles.Course ⟨7, 0⟩ ⟨-7, 7⟩ [⟨0, 7⟩] ∧
    hurdles.lineAttack? ⟨7, 0⟩ .black strides [.queen] = some ⟨.queen, .black, ⟨0, 7⟩⟩ ∧
    ∃ d ∈ strides, hurdles.Finds .black [.queen] ⟨7, 0⟩ d ⟨0, 7⟩ := by
  have hd : ∀ d ∈ strides, d ≠ ⟨0, 0⟩ ∧ d.Within 120 := by decide
  obtain ⟨hcourse, hanswer, -⟩ := @lineAttack?_walk hurdles ⟨7, 0⟩ .black [.queen] strides hd
  have hstep : hurdles.sightline ⟨7, 0⟩ ⟨-120, 7⟩ = [] := by decide +kernel
  have hrook : hurdles.sightline ⟨7, 0⟩ ⟨0, 2⟩ = [⟨7, 2⟩, ⟨7, 4⟩] := by decide +kernel
  have hpawn : hurdles.sightline ⟨7, 0⟩ ⟨-2, 1⟩ = [⟨5, 1⟩, ⟨3, 2⟩] := by decide +kernel
  have hqueen : hurdles.sightline ⟨7, 0⟩ ⟨-7, 7⟩ = [⟨0, 7⟩] := by decide +kernel
  have hnamed : hurdles.lineAttack? ⟨7, 0⟩ .black strides [.queen] =
      some ⟨.queen, .black, ⟨0, 7⟩⟩ := by decide +kernel
  obtain ⟨-, -, i, d, hi, hfinds, -⟩ := (hanswer _).1 hnamed
  refine ⟨hd, ?_, ?_, ?_, ?_, hnamed, d, List.mem_of_getElem? hi, hfinds⟩
  · rw [← hstep]
    exact hcourse ⟨-120, 7⟩ (by decide)
  · rw [← hrook]
    exact hcourse ⟨0, 2⟩ (by decide)
  · rw [← hpawn]
    exact hcourse ⟨-2, 1⟩ (by decide)
  · rw [← hqueen]
    exact hcourse ⟨-7, 7⟩ (by decide)

end Board
end KingCheck
