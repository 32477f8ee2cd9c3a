import KingCheck.Proofs.Input.Opening

/-!
# What a call uses up

A call for a block reads one line after another; that it comes to an end is no matter of the rows
it gathers, since blank lines before the first one add none.  `Takes` says which lines a call reads
and what it comes to then.  Each line that is read is one less of those that the octets have
(`Reads.pieces_eq`), and a failed read is one less too, so that the calls that bring something are
as few as there are lines and failures (`countP_answers_le`).
-/
namespace KingCheck

namespace Answer

/-- A drawing is handed out. -/
def isRows : Answer → Bool
  | .rows _ => true
  | _ => false

/-- A failure is told. -/
def isFailed : Answer → Bool
  | .failed _ => true
  | _ => false

end Answer

namespace Input.Reader

open Text (Octets pieces length_pieces_le_append)

variable {r mid rest : Reader} {lines before : List Octets} {line : Octets} {answer : Answer}
  {taken : List String}

/-- How many lines the octets that are left have. -/
def lineCount (r : Reader) : Nat := (pieces newline r.octets).length

theorem octets_append (first next : Reader) :
    (first ++ next).octets = first.octets ++ next.octets := by
  induction first with
  | nil => rfl
  | cons delivery first ih =>
    cases delivery with
    | chunk bytes => rw [List.cons_append, octets, octets, ih, List.append_assoc]
    | interrupted | failure text => exact ih

/-- A failed read is used up, with what the line had by then. -/
theorem failures_of_readLine {text : String} (h : r.readLine = (.error text, rest)) :
    rest.lineCount ≤ r.lineCount ∧ rest.failures + 1 = r.failures := by
  cases lineRead_readLine h with
  | failed hreader hsteady =>
    rw [hreader, lineCount, lineCount, octets_append, failures_append, steady_iff.1 hsteady]
    refine ⟨length_pieces_le_append _ _, ?_⟩
    rw [Nat.zero_add, failures, failures, List.countP_cons_of_pos rfl]

namespace Reads

theorem concat (h : Reads lines r mid) (hread : mid.readLine = (.ok (some line), rest)) :
    Reads (lines ++ [line]) r rest := by
  induction h with
  | nil => exact .cons hread (.nil rest)
  | cons hfirst _ ih => exact .cons hfirst (ih hread)

/-- **Lines that are read are the first of those that there are.** -/
theorem pieces_eq (h : Reads lines r rest) :
    pieces newline r.octets = lines ++ pieces newline rest.octets ∧ rest.failures = r.failures := by
  induction h with
  | nil => exact ⟨rfl, rfl⟩
  | cons hread _ ih =>
    obtain ⟨hpieces, hfailures⟩ := pieces_of_readLine hread
    exact ⟨by rw [hpieces, ih.1, List.cons_append], ih.2.trans hfailures⟩

end Reads

/-- The rows of some lines without the blank ones at the beginning. -/
def shownRows (lines : List Octets) : List String := (lines.map rowOf).dropWhile isBlankRow

/-- One more line adds its row, unless it is blank and the first to be shown. -/
theorem shownRows_concat (lines : List Octets) (line : Octets) :
    shownRows (lines ++ [line]) =
      if shownRows lines = [] ∧ isBlankRow (rowOf line) = true then []
      else shownRows lines ++ [rowOf line] := by
  rw [shownRows, shownRows, List.map_append, List.dropWhile_append]
  cases (lines.map rowOf).dropWhile isBlankRow with
  | nil => cases hblank : isBlankRow (rowOf line) <;> simp [hblank]
  | cons first others => simp

/-- A call for a block reads these lines, one after another, and comes to an answer. -/
inductive Takes (r : Reader) (lines : List Octets) : Answer → Reader → Prop where
  /-- All rows of a block are there. -/
  | whole {rest : Reader} (hlines : Reads lines r rest)
      (hlength : (shownRows lines).length = boardSize) :
      Takes r lines (.rows (shownRows lines)) rest
  /-- The reader ends inside a block. -/
  | short {mid rest : Reader} (hlines : Reads lines r mid) (hend : mid.readLine = (.ok none, rest))
      (hshown : shownRows lines ≠ []) (hlength : (shownRows lines).length < boardSize) :
      Takes r lines (.rows (shownRows lines)) rest
  /-- The reader ends before a block. -/
  | exhausted {mid rest : Reader} (hlines : Reads lines r mid)
      (hend : mid.readLine = (.ok none, rest)) (hblank : shownRows lines = []) :
      Takes r lines .exhausted rest
  /-- A read fails. -/
  | failed {mid rest : Reader} {text : String} (hlines : Reads lines r mid)
      (hread : mid.readLine = (.error text, rest))
      (hlength : (shownRows lines).length < boardSize) :
      Takes r lines (.failed (.device text)) rest

/-- Filling a block that is begun completes a call. -/
theorem exists_takes_fillBlock (hbefore : Reads before r mid) (htaken : shownRows before = taken)
    (hlength : taken.length ≤ boardSize) :
    ∃ lines, r.Takes lines (fillBlock taken mid).1 (fillBlock taken mid).2 := by
  fun_induction fillBlock taken mid generalizing before with
  | case1 taken mid hfull =>
    subst htaken
    exact ⟨before, .whole hbefore (Nat.le_antisymm hlength hfull)⟩
  | case2 taken mid hmore text rest hread =>
    subst htaken
    exact ⟨before, .failed hbefore hread (by omega)⟩
  | case3 taken mid hmore rest hend =>
    subst htaken
    refine ⟨before, ?_⟩
    by_cases hshown : shownRows before = []
    · rw [if_pos hshown]
      exact .exhausted hbefore hend hshown
    · rw [if_neg hshown]
      exact .short hbefore hend hshown (by omega)
  | case4 taken mid hmore line rest hread _ hblank ih =>
    refine ih (hbefore.concat hread) ?_ (by decide)
    rw [shownRows_concat, htaken, if_pos hblank]
  | case5 taken mid hmore line rest hread _ hshown ih =>
    refine ih (hbefore.concat hread) ?_ ?_
    · rw [shownRows_concat, htaken, if_neg hshown]
    · rw [List.length_append, List.length_singleton]
      omega

/-- **Every call comes to an end.** -/
theorem exists_takes (r : Reader) : ∃ lines, r.Takes lines r.nextBlock.1 r.nextBlock.2 :=
  exists_takes_fillBlock (.nil r) rfl (by decide)

namespace Takes

/-- A drawing that is handed out has lines. -/
theorem ne_nil (h : r.Takes lines answer rest) (hrows : answer.isRows = true) : lines ≠ [] := by
  rintro rfl
  cases h with
  | whole _ hlength => simp [shownRows] at hlength
  | short _ _ hshown => exact hshown rfl
  | exhausted | failed => cases hrows

/-- The lines of a call are used up. -/
theorem lineCount_le (h : r.Takes lines answer rest) :
    lines.length + rest.lineCount ≤ r.lineCount := by
  have hcount : ∀ {mid}, Reads lines r mid → r.lineCount = lines.length + mid.lineCount := by
    intro mid hlines
    rw [lineCount, hlines.pieces_eq.1, List.length_append, lineCount]
  cases h with
  | whole hlines => exact (hcount hlines).ge
  | short hlines hend | exhausted hlines hend =>
    obtain ⟨-, -, rfl⟩ := eq_nil_of_readLine hend
    exact (Nat.le_add_right _ _).trans (hcount hlines).ge
  | failed hlines hread =>
    rw [hcount hlines]
    exact Nat.add_le_add_left (failures_of_readLine hread).1 _

/-- A failure that is told is used up, and no other. -/
theorem failures_eq (h : r.Takes lines answer rest) :
    answer.isFailed.toNat + rest.failures = r.failures := by
  cases h with
  | whole hlines => exact (Nat.zero_add _).trans hlines.pieces_eq.2
  | short hlines hend | exhausted hlines hend =>
    obtain ⟨-, hnone, rfl⟩ := eq_nil_of_readLine hend
    exact hnone.symm.trans hlines.pieces_eq.2
  | failed hlines hread =>
    rw [← hlines.pieces_eq.2, ← (failures_of_readLine hread).2]
    exact Nat.add_comm _ _

/-- A drawing that is handed out costs a line. -/
theorem isRows_add_lineCount_le (h : r.Takes lines answer rest) :
    answer.isRows.toNat + rest.lineCount ≤ r.lineCount := by
  refine (Nat.add_le_add_right ?_ _).trans h.lineCount_le
  cases hrows : answer.isRows with
  | false => exact Nat.zero_le _
  | true => exact List.length_pos_iff.2 (h.ne_nil hrows)

end Takes

/-- **However many calls are made, as many drawings are handed out as there are lines at most, and
as many failures are told as there are.** -/
theorem countP_answers_le (r : Reader) (calls : Nat) :
    (BoardSource.answers calls r).countP Answer.isRows ≤ r.lineCount ∧
      (BoardSource.answers calls r).countP Answer.isFailed ≤ r.failures := by
  induction calls generalizing r with
  | zero => exact ⟨Nat.zero_le _, Nat.zero_le _⟩
  | succ calls ih =>
    have hcount : ∀ p : Answer → Bool, (BoardSource.answers (calls + 1) r).countP p =
        (p r.nextBlock.1).toNat + (BoardSource.answers calls r.nextBlock.2).countP p := by
      intro p
      rw [BoardSource.answers, List.countP_cons, Nat.add_comm]
      change (if p r.nextBlock.1 = true then 1 else 0) + _ = _
      cases p r.nextBlock.1 <;> rfl
    obtain ⟨lines, htakes⟩ := r.exists_takes
    obtain ⟨hrows, hfailed⟩ := ih r.nextBlock.2
    have hline := htakes.isRows_add_lineCount_le
    have hfailure := htakes.failures_eq
    rw [hcount, hcount]
    omega

end Input.Reader
end KingCheck
