/-!
# Lines

A text is cut at a separator into pieces.  The separator ends the piece before it, so
nothing follows a final separator and an empty text has no pieces.  A line may end in
carriage returns, which do not belong to it.
-/
namespace KingCheck.Text

section Pieces

variable {α : Type} [DecidableEq α] (sep : α)

/-- Put one more element before a text that is already cut. -/
def place (a : α) : List (List α) → List (List α)
  | [] => if a = sep then [[]] else [[a]]
  | piece :: pieces => if a = sep then [] :: piece :: pieces else (a :: piece) :: pieces

/-- The pieces of a text, each ended by the separator or by the end of the text. -/
def pieces (s : List α) : List (List α) := s.foldr (place sep) []

@[simp] theorem pieces_nil : pieces sep [] = [] := rfl

@[simp] theorem pieces_cons_sep (s : List α) : pieces sep (sep :: s) = [] :: pieces sep s := by
  rw [pieces, List.foldr_cons, place.eq_def]
  cases h : s.foldr (place sep) [] <;> simp [pieces, h]

/-- A piece that the separator ends comes off whole. -/
theorem pieces_append_sep {piece : List α} (h : sep ∉ piece) (s : List α) :
    pieces sep (piece ++ sep :: s) = piece :: pieces sep s := by
  induction piece with
  | nil => simp
  | cons a piece ih =>
    have ha : a ≠ sep := fun e => h (by simp [e])
    have hp := ih fun m => h (List.mem_cons_of_mem a m)
    rw [List.cons_append, pieces, List.foldr_cons]
    change place sep a (pieces sep (piece ++ sep :: s)) = _
    rw [hp]
    simp [place, ha]

/-- Without a separator a text that is not empty is one piece. -/
theorem pieces_of_not_mem {s : List α} (h : sep ∉ s) (hs : s ≠ []) : pieces sep s = [s] := by
  induction s with
  | nil => exact absurd rfl hs
  | cons a s ih =>
    have ha : a ≠ sep := fun e => h (by simp [e])
    rw [pieces, List.foldr_cons]
    change place sep a (pieces sep s) = _
    cases s with
    | nil => simp [place, ha]
    | cons b s =>
      rw [ih (fun m => h (List.mem_cons_of_mem a m)) (by simp)]
      simp [place, ha]

end Pieces

/-- The line without the carriage returns at its end. -/
def trimReturns (line : List Char) : List Char :=
  (line.reverse.dropWhile (· == '\r')).reverse

/-- The lines of a text, without their endings. -/
def lines (s : String) : List String :=
  (pieces '\n' s.toList).map fun line => String.ofList (trimReturns line)

@[simp] theorem trimReturns_nil : trimReturns [] = [] := rfl

/-- Returns at the end never show. -/
@[simp] theorem trimReturns_append_return (line : List Char) :
    trimReturns (line ++ ['\r']) = trimReturns line := by
  simp [trimReturns]

end KingCheck.Text
