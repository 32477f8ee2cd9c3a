import KingCheck.Attack

/-!
# Rays and lines of sight

A ray is walked one step at a time and a line of sight is cut off on the way.  Here both are said
at once, by multiples of the direction: the square `k` steps out is the square at `k` times the
offset (`getElem?_walk`), and it is seen exactly when the squares at the smaller multiples are empty
(`getElem?_sightline_eq_some_iff`).  Since a board is convex, a ray that has left it never comes
back.
-/
namespace KingCheck

namespace Offset

/-- An offset repeated. -/
def times (d : Offset) (k : Nat) : Offset := ⟨k * d.rows, k * d.cols⟩

@[simp] theorem rows_times (d : Offset) (k : Nat) : (d.times k).rows = k * d.rows := rfl

@[simp] theorem cols_times (d : Offset) (k : Nat) : (d.times k).cols = k * d.cols := rfl

@[simp] theorem times_one (d : Offset) : d.times 1 = d := by
  simp [times]

end Offset

/-- Between the start of a walk on a line of numbers and a later place inside an
interval, all places are inside. -/
private theorem mul_mem_of_le {a x n : Int} {j k : Nat} (hjk : j ≤ k) (ha : 0 ≤ a ∧ a < n)
    (hk : 0 ≤ a + k * x ∧ a + k * x < n) : 0 ≤ a + j * x ∧ a + j * x < n := by
  have hcast : (j : Int) ≤ k := by omega
  have hj : (0 : Int) ≤ j := by omega
  rcases Int.le_total 0 x with hx | hx
  · have hle := Int.mul_le_mul_of_nonneg_right hcast hx
    have hnonneg := Int.mul_nonneg hj hx
    omega
  · have hle := Int.mul_le_mul_of_nonpos_right hcast hx
    have hnonpos := Int.mul_nonpos_of_nonneg_of_nonpos hj hx
    omega

/-- A number that is not zero, repeated `n` times, leaves every interval of length `n`. -/
private theorem not_mul_mem_of_le {a x n : Int} {k : Nat} (hx : x ≠ 0) (hk : n ≤ k)
    (ha : 0 ≤ a ∧ a < n) : ¬ (0 ≤ a + k * x ∧ a + k * x < n) := by
  have hcast : (0 : Int) ≤ k := by omega
  rcases Int.lt_or_gt_of_ne hx with hneg | hpos
  · have hstep : x ≤ -1 := by omega
    have hle := Int.mul_le_mul_of_nonneg_left hstep hcast
    omega
  · have hstep : 1 ≤ x := by omega
    have hle := Int.mul_le_mul_of_nonneg_left hstep hcast
    omega

namespace Square

variable {s t : Square} {d : Offset}

theorem offset_isSome_iff : (s.offset d).isSome = true ↔
    (0 ≤ s.row.val + d.rows ∧ s.row.val + d.rows < boardSize) ∧
      (0 ≤ s.col.val + d.cols ∧ s.col.val + d.cols < boardSize) := by
  constructor
  · intro h
    obtain ⟨t, ht⟩ := Option.isSome_iff_exists.1 h
    have ht' := offset_eq_some_iff.1 ht
    have hrow := t.row.isLt
    have hcol := t.col.isLt
    omega
  · intro h
    obtain ⟨hrow, hcol⟩ := h
    refine Option.isSome_iff_exists.2 ⟨⟨⟨(s.row.val + d.rows).toNat, by omega⟩,
      ⟨(s.col.val + d.cols).toNat, by omega⟩⟩, offset_eq_some_iff.2 ⟨?_, ?_⟩⟩
    · exact Int.toNat_of_nonneg hrow.1
    · exact Int.toNat_of_nonneg hcol.1

/-- One step and then `k` more are `k + 1` steps. -/
theorem offset_times_succ (h : s.offset d = some t) (k : Nat) :
    t.offset (d.times k) = s.offset (d.times (k + 1)) := by
  obtain ⟨hrow, hcol⟩ := offset_eq_some_iff.1 h
  ext u
  simp only [offset_eq_some_iff, Offset.rows_times, Offset.cols_times, hrow, hcol,
    Int.natCast_add, Int.add_mul, Int.natCast_one, Int.one_mul, Int.add_assoc]
  rw [Int.add_comm d.rows, Int.add_comm d.cols]

/-- A walk that is on the board after `k` steps was on it all the way. -/
theorem offset_times_isSome_of_le {j k : Nat} (hjk : j ≤ k)
    (h : (s.offset (d.times k)).isSome = true) : (s.offset (d.times j)).isSome = true := by
  have hrow := s.row.isLt
  have hcol := s.col.isLt
  rw [offset_isSome_iff] at h ⊢
  exact ⟨mul_mem_of_le hjk (by omega) h.1, mul_mem_of_le hjk (by omega) h.2⟩

/-- Eight steps leave the board, whatever the direction. -/
theorem offset_times_eq_none (hd : d ≠ ⟨0, 0⟩) {k : Nat} (hk : boardSize ≤ k) :
    s.offset (d.times k) = none := by
  have hrow := s.row.isLt
  have hcol := s.col.isLt
  rw [← Option.not_isSome_iff_eq_none, offset_isSome_iff]
  intro h
  obtain ⟨hr, hc⟩ := h
  have hrows : d.rows = 0 := Decidable.byContradiction fun hx =>
    not_mul_mem_of_le hx (by omega) (by omega) hr
  have hcols : d.cols = 0 := Decidable.byContradiction fun hx =>
    not_mul_mem_of_le hx (by omega) (by omega) hc
  refine hd ?_
  calc
    d = ⟨d.rows, d.cols⟩ := rfl
    _ = ⟨0, 0⟩ := by rw [hrows, hcols]

/-- The places of a walk are the multiples of its offset. -/
theorem getElem?_walk {n i : Nat} (hi : i < n) (s : Square) :
    (walk d n s)[i]? = s.offset (d.times (i + 1)) := by
  induction n generalizing i s with
  | zero => omega
  | succ n ih =>
    rw [walk]
    cases hs : s.offset d with
    | none =>
      -- off the board once, off it for good
      have hnone : s.offset (d.times (i + 1)) = none := by
        rw [← Option.not_isSome_iff_eq_none]
        intro h
        have hle : 1 ≤ i + 1 := by omega
        have hone := offset_times_isSome_of_le hle h
        simp [hs] at hone
      simp [hnone]
    | some next =>
      cases i with
      | zero => simpa using hs.symm
      | succ i => simpa [offset_times_succ hs] using ih (by omega) next

theorem length_walk_le (d : Offset) (n : Nat) (s : Square) : (walk d n s).length ≤ n := by
  induction n generalizing s with
  | zero => simp [walk]
  | succ n ih =>
    rw [walk]
    split
    · simp
    next next _ => simpa using ih next

end Square

/-- What a list has up to the first hit: the members before which nothing is hit, at their
places. -/
theorem getElem?_upTo_eq_some_iff {α : Type} {p : α → Bool} {l : List α} {a : α} {i : Nat} :
    (upTo p l)[i]? = some a ↔ l[i]? = some a ∧ ∀ j < i, ∀ c, l[j]? = some c → p c = false := by
  induction l generalizing i with
  | nil => simp [upTo]
  | cons x rest ih =>
    cases i with
    | zero =>
      rw [upTo]
      split <;> simp
    | succ i =>
      by_cases hp : p x = true
      · rw [upTo, if_pos hp]
        constructor
        · intro h
          simp at h
        · intro h
          have hfirst : p x = false := h.2 0 (by omega) x rfl
          simp [hp] at hfirst
      · rw [upTo, if_neg hp, List.getElem?_cons_succ, List.getElem?_cons_succ, ih]
        constructor
        · intro h
          obtain ⟨hi, hbefore⟩ := h
          refine ⟨hi, fun j hj c hc => ?_⟩
          cases j with
          | zero =>
            obtain rfl : x = c := by simpa using hc
            simpa using hp
          | succ j => exact hbefore j (by omega) c (by simpa using hc)
        · intro h
          obtain ⟨hi, hbefore⟩ := h
          exact ⟨hi, fun j hj c hc => hbefore (j + 1) (by omega) c (by simpa using hc)⟩

namespace Board

variable (b : Board) {t s : Square} {d : Offset}

/-- The squares closer to `t` than `k` steps in direction `d` are empty. -/
def OpenTo (t : Square) (d : Offset) (k : Nat) : Prop :=
  ∀ j, 0 < j → j < k → ∀ m, t.offset (d.times j) = some m → (b.cell m).isEmpty = true

/-- A walk cut off at the first occupied square has at each place the square so many steps away,
if all before it are empty. -/
theorem getElem?_upTo_walk_eq_some_iff {n i : Nat} :
    (upTo (fun s => !(b.cell s).isEmpty) (Square.walk d n t))[i]? = some s ↔
      i < n ∧ t.offset (d.times (i + 1)) = some s ∧ b.OpenTo t d (i + 1) := by
  rw [getElem?_upTo_eq_some_iff]
  constructor
  · intro h
    obtain ⟨hi, hbefore⟩ := h
    have hlength := Square.length_walk_le d n t
    obtain ⟨hlt, -⟩ := List.getElem?_eq_some_iff.1 hi
    rw [Square.getElem?_walk (by omega)] at hi
    refine ⟨by omega, hi, ?_⟩
    intro j hj hjlt m hm
    obtain ⟨j, rfl⟩ : ∃ j', j = j' + 1 := ⟨j - 1, by omega⟩
    rw [← Square.getElem?_walk (by omega : j < n)] at hm
    simpa using hbefore j (by omega) m hm
  · intro h
    obtain ⟨hlt, hs, hopen⟩ := h
    refine ⟨by rwa [Square.getElem?_walk hlt], ?_⟩
    intro j hj m hm
    rw [Square.getElem?_walk (by omega)] at hm
    simpa using hopen (j + 1) (by omega) (by omega) m hm

/-- A walk cut off at the first occupied square has the places before which all are empty. -/
theorem mem_upTo_walk_iff {n : Nat} :
    s ∈ upTo (fun s => !(b.cell s).isEmpty) (Square.walk d n t) ↔
      ∃ k, 0 < k ∧ k ≤ n ∧ t.offset (d.times k) = some s ∧ b.OpenTo t d k := by
  simp only [List.mem_iff_getElem?, getElem?_upTo_walk_eq_some_iff]
  constructor
  · intro h
    obtain ⟨i, hi, hs, hopen⟩ := h
    exact ⟨i + 1, by omega, hi, hs, hopen⟩
  · intro h
    obtain ⟨k, hk, hle, hs, hopen⟩ := h
    obtain ⟨i, rfl⟩ : ∃ i, k = i + 1 := ⟨k - 1, by omega⟩
    exact ⟨i, hle, hs, hopen⟩

/-- **A square is seen from `t`, at a place of the line of sight, exactly when it is so many steps
away in the direction of looking and the squares closer to `t` are empty.** -/
theorem getElem?_sightline_eq_some_iff (hd : d ≠ ⟨0, 0⟩) {i : Nat} :
    (b.sightline t d)[i]? = some s ↔
      t.offset (d.times (i + 1)) = some s ∧ b.OpenTo t d (i + 1) := by
  rw [sightline, Square.ray, getElem?_upTo_walk_eq_some_iff]
  refine and_iff_right_of_imp fun h => Nat.lt_of_not_le fun hfar => ?_
  have hnone : t.offset (d.times (i + 1)) = none := Square.offset_times_eq_none hd (by omega)
  rw [hnone] at h
  cases h.1

variable {b} {s' : Square} {k k' : Nat}

/-- One occupied square at most is seen in a direction. -/
theorem OpenTo.unique (hk : 0 < k) (hk' : 0 < k')
    (hs : t.offset (d.times k) = some s) (hs' : t.offset (d.times k') = some s')
    (hopen : b.OpenTo t d k) (hopen' : b.OpenTo t d k') (hpiece : (b.cell s).isEmpty = false)
    (hpiece' : (b.cell s').isEmpty = false) : s = s' := by
  -- of two the nearer would stand before the farther
  have hle : k ≤ k' := Nat.le_of_not_lt fun hlt => by simp [hopen k' hk' hlt s' hs'] at hpiece'
  have hge : k' ≤ k := Nat.le_of_not_lt fun hlt => by simp [hopen' k hk hlt s hs] at hpiece
  obtain rfl : k = k' := by omega
  rw [hs] at hs'
  exact Option.some.inj hs'

end Board
end KingCheck
