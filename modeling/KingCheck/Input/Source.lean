import KingCheck.Failure
import KingCheck.Square
import KingCheck.Input.Reader
import KingCheck.Text.Blank
import KingCheck.Text.Lines

/-!
# Sources of drawings

A supply hands out the rows of one drawing after another until it says that there are no
more.  Some supplies never do; a source comes with a bound on the drawings it has left, so
that a run over it ends.  A list of answers is a source, which hands them out in order,
and so is a reader: its lines are taken in blocks of eight, blank lines before a block are
left out, and the last block may be short.
-/
namespace KingCheck

/-- What a source answers when it is asked for rows. -/
inductive Answer where
  /-- The rows of the next drawing. -/
  | rows (rows : List String)
  /-- There are no more drawings. -/
  | exhausted
  /-- The source failed. -/
  | failed (failure : Failure)
deriving DecidableEq

/-- A place that drawings come from, without an end perhaps. -/
class Supply (σ : Type) where
  /-- The next answer, and what is left after it. -/
  next : σ → Answer × σ

/-- A supply that comes to an end. -/
class BoardSource (σ : Type) extends Supply σ where
  /-- A bound on the drawings that are left. -/
  remaining : σ → Nat
  /-- Each drawing handed out lowers the bound. -/
  remaining_lt : ∀ {s : σ} {rows : List String},
    (next s).1 = .rows rows → remaining (next s).2 < remaining s

namespace BoardSource

export Supply (next)

end BoardSource

/-- The first of a list of answers; after the last, there are no more drawings. -/
def nextAnswer : List Answer → Answer × List Answer
  | [] => (.exhausted, [])
  | answer :: rest => (answer, rest)

instance : BoardSource (List Answer) where
  next := nextAnswer
  remaining := List.length
  remaining_lt {s} _ h := by
    cases s with
    | nil => simp [nextAnswer] at h
    | cons => simp [nextAnswer]

namespace Input

open Text (Octets)

/-- The row that a line's octets encode, without returns at its end. -/
def rowOf (line : Octets) : String := String.ofList (Text.trimReturns (Text.decode line))

/-- The row shows nothing. -/
def isBlankRow (row : String) : Bool := row.toList.all Text.isBlank

namespace Reader

/-- Read lines until eight rows are there or the reader ends; before the first row,
blank lines are passed over. -/
def fillBlock (rows : List String) (r : Reader) : Answer × Reader :=
  if boardSize ≤ rows.length then (.rows rows, r)
  else
    match h : r.readLine with
    | (.error text, rest) => (.failed (.device text), rest)
    | (.ok none, rest) => (if rows = [] then .exhausted else .rows rows, rest)
    | (.ok (some line), rest) =>
      have : rest.size < r.size := by simpa [h] using size_readLine_lt (r := r) (by simp [h])
      if rows = [] ∧ isBlankRow (rowOf line) then fillBlock [] rest
      else fillBlock (rows ++ [rowOf line]) rest
termination_by r.size

/-- Read the next block of rows. -/
def nextBlock (r : Reader) : Answer × Reader := fillBlock [] r

theorem size_fillBlock_le (rows : List String) (r : Reader) :
    (fillBlock rows r).2.size ≤ r.size := by
  fun_induction fillBlock rows r with
  | case1 => simp
  | case2 rows r _ text rest h => simpa [h] using size_readLine_le r
  | case3 rows r _ rest h => simpa [h] using size_readLine_le r
  | case4 rows r _ line rest _ hlt _ ih => omega
  | case5 rows r _ line rest _ hlt _ ih => omega

private theorem fillBlock_exhausted_or_size_lt {rows : List String} {r : Reader}
    (hrows : rows = []) :
    (fillBlock rows r).1 = .exhausted ∨ (fillBlock rows r).2.size < r.size := by
  fun_cases fillBlock rows r with
  | case1 hlen => simp [hrows] at hlen
  | case2 _ _ _ hr => exact .inr (by simpa [hr] using size_readLine_lt (r := r) (by simp [hr]))
  | case3 => exact .inl (by simp [hrows])
  | case4 _ line rest hr hlt _ =>
    have := size_fillBlock_le [] rest
    exact .inr (by omega)
  | case5 _ line rest hr hlt _ =>
    have := size_fillBlock_le (rows ++ [rowOf line]) rest
    exact .inr (by omega)

/-- **A block that is handed out, and a failure, use up some of the reader.** -/
theorem size_nextBlock_lt {r : Reader} (h : r.nextBlock.1 ≠ .exhausted) :
    r.nextBlock.2.size < r.size :=
  (fillBlock_exhausted_or_size_lt rfl).resolve_left h

end Reader

instance : BoardSource Reader where
  next := Reader.nextBlock
  remaining := Reader.size
  remaining_lt h := Reader.size_nextBlock_lt (by simp [h])

end Input
end KingCheck
