import KingCheck.Board.Rows
import KingCheck.Input.Source
import KingCheck.Proofs.Text.Lines
import Mathlib.Data.List.TakeWhile

/-!
# Lines and blocks of a reader

A reader whose reads do not fail hands out the lines between newlines, however its octets
are cut into deliveries (`pieces_of_readLine`, `eq_nil_of_readLine`).  The drawings that come of
it are then a function of its rows alone (`nextBlock_of_steady`): a block begins at a row that shows
something and takes eight rows, or what is left.
-/
namespace KingCheck

namespace BoardSource

variable {σ : Type} [Supply σ]

/-- The answers to the first calls. -/
def answers : Nat → σ → List Answer
  | 0, _ => []
  | n + 1, s => (next s).1 :: answers n (next s).2

/-- The first answers are the first of any more. -/
theorem take_answers (n more : Nat) (s : σ) : (answers (n + more) s).take n = answers n s := by
  induction n generalizing s with
  | zero => rfl
  | succ n ih =>
    rw [Nat.add_right_comm, answers, answers, List.take_succ_cons, ih]

end BoardSource

namespace Input

open Text (Octets pieces pieces_append_sep pieces_of_not_mem)

/-- The blocks of some rows. -/
def blocks (rows : List String) : List Drawing :=
  match h : rows.dropWhile isBlankRow with
  | [] => []
  | first :: others =>
    have : (first :: others).length ≤ rows.length :=
      h ▸ (List.dropWhile_suffix (l := rows) isBlankRow).length_le
    (first :: others.take (boardSize - 1)) :: blocks (others.drop (boardSize - 1))
termination_by rows.length
decreasing_by simp only [List.length_cons, List.length_drop] at this ⊢; omega

theorem blocks_of_dropWhile_eq_nil {rows : List String} (h : rows.dropWhile isBlankRow = []) :
    blocks rows = [] := by
  rw [blocks]
  split
  next => rfl
  next first others hcons => simp [h] at hcons

theorem blocks_of_dropWhile_eq_cons {rows others : List String} {first : String}
    (h : rows.dropWhile isBlankRow = first :: others) :
    blocks rows =
      (first :: others.take (boardSize - 1)) :: blocks (others.drop (boardSize - 1)) := by
  rw [blocks]
  split
  next hnil => simp [h] at hnil
  next f o hcons =>
    obtain ⟨rfl, rfl⟩ : first = f ∧ others = o := by simpa [h] using hcons
    rfl

/-- A row that shows something begins a block. -/
theorem blocks_cons_of_shown {first : String} (h : isBlankRow first = false)
    (others : List String) :
    blocks (first :: others) =
      (first :: others.take (boardSize - 1)) :: blocks (others.drop (boardSize - 1)) := by
  apply blocks_of_dropWhile_eq_cons
  rw [List.dropWhile_cons, h]
  rfl

/-- Rows that show nothing make no block. -/
theorem blocks_of_blank {blanks : List String} (h : ∀ row ∈ blanks, isBlankRow row = true) :
    blocks blanks = [] :=
  blocks_of_dropWhile_eq_nil (List.dropWhile_eq_nil_iff.2 h)

@[simp] theorem blocks_nil : blocks [] = [] := blocks_of_dropWhile_eq_nil rfl

/-- Rows that show nothing are no part of the blocks after them. -/
theorem blocks_append_of_blank {blanks : List String} (h : ∀ row ∈ blanks, isBlankRow row = true)
    (rows : List String) : blocks (blanks ++ rows) = blocks rows := by
  have hdrop : (blanks ++ rows).dropWhile isBlankRow = rows.dropWhile isBlankRow :=
    List.dropWhile_append_of_pos h
  cases hrows : rows.dropWhile isBlankRow with
  | nil => rw [blocks_of_dropWhile_eq_nil hrows, blocks_of_dropWhile_eq_nil (hdrop.trans hrows)]
  | cons first others =>
    rw [blocks_of_dropWhile_eq_cons hrows, blocks_of_dropWhile_eq_cons (hdrop.trans hrows)]

theorem blocks_cons_of_blank {row : String} (h : isBlankRow row = true) (rows : List String) :
    blocks (row :: rows) = blocks rows := by
  have hrow : ∀ r ∈ [row], isBlankRow r = true := by simpa using h
  exact blocks_append_of_blank hrow rows

/-- Eight rows, the first of which shows something, are a block. -/
theorem blocks_append {block : Drawing} (hlen : block.length = boardSize)
    (hfirst : ∀ row, block.head? = some row → isBlankRow row = false) (rows : List String) :
    blocks (block ++ rows) = block :: blocks rows := by
  cases block with
  | nil => simp [boardSize] at hlen
  | cons first others =>
    have hothers : others.length = boardSize - 1 := by
      rw [List.length_cons] at hlen
      omega
    rw [List.cons_append, blocks_cons_of_shown (hfirst first rfl), List.take_left' hothers,
      List.drop_left' hothers]

/-- Where every block is whole, what comes after makes blocks of its own. -/
theorem blocks_append_of_whole {rows : List String}
    (h : ∀ block ∈ blocks rows, block.length = boardSize) (more : List String) :
    blocks (rows ++ more) = blocks rows ++ blocks more := by
  induction rows using blocks.induct with
  | case1 rows hdrop =>
    rw [blocks_of_dropWhile_eq_nil hdrop, List.nil_append]
    exact blocks_append_of_blank (List.dropWhile_eq_nil_iff.1 hdrop) more
  | case2 rows first others hdrop _ ih =>
    rw [blocks_of_dropWhile_eq_cons hdrop] at h ⊢
    have hlen : boardSize - 1 ≤ others.length := by
      have := h _ List.mem_cons_self
      rw [List.length_cons, List.length_take] at this
      omega
    have hmore : (rows ++ more).dropWhile isBlankRow = first :: (others ++ more) := by
      rw [List.dropWhile_append, hdrop]
      rfl
    rw [blocks_of_dropWhile_eq_cons hmore, List.take_append_of_le_length hlen,
      List.drop_append_of_le_length hlen, ih fun block hb => h block (List.mem_cons_of_mem _ hb),
      List.cons_append]

namespace Reader

variable {r rest : Reader} {begun bytes : Octets} {delivery : Delivery}

/-- No read fails. -/
def Steady (r : Reader) : Prop := ∀ text, Delivery.failure text ∉ r

/-- The octets that the reader has left. -/
def octets : Reader → Octets
  | [] => []
  | .chunk bytes :: rest => bytes ++ octets rest
  | .interrupted :: rest => octets rest
  | .failure _ :: rest => octets rest

/-- The rows that the reader's octets encode. -/
def rows (r : Reader) : List String := (pieces newline r.octets).map rowOf

theorem Steady.tail (h : Steady (delivery :: rest)) : rest.Steady :=
  fun text hmem => h text (List.mem_cons_of_mem _ hmem)

theorem Steady.cons (h : rest.Steady) (hfirst : ∀ text, delivery ≠ .failure text) :
    Steady (delivery :: rest) := by
  intro text hmem
  rcases List.mem_cons.1 hmem with heq | hrest
  · exact hfirst text heq.symm
  · exact h text hrest

theorem Steady.chunk (h : rest.Steady) : Steady (.chunk bytes :: rest) := h.cons (by simp)

/-- A reader that delivers octets at once does not fail. -/
theorem steady_ofOctets (bytes : Octets) : (ofOctets bytes).Steady := by
  intro text h
  simp [ofOctets] at h

theorem octets_ofOctets (bytes : Octets) : (ofOctets bytes).octets = bytes := List.append_nil bytes

/-- Where octets go past their first line, the newline after it comes next. -/
theorem eq_line_append_of_dropWhile {octet : UInt8} {after : Octets}
    (h : bytes.dropWhile (· != newline) = octet :: after) :
    newline ∉ bytes.takeWhile (· != newline) ∧
      bytes = bytes.takeWhile (· != newline) ++ newline :: after := by
  have hoctet : octet = newline := by
    have := List.head?_dropWhile_not (· != newline) bytes
    simpa [h] using this
  constructor
  · intro hmem
    have := List.mem_takeWhile_imp hmem
    simp at this
  · rw [← hoctet, ← h]
    subst hoctet
    exact List.takeWhile_append_dropWhile.symm

/-- Octets that are one line hold no newline. -/
theorem newline_notMem_of_dropWhile (h : bytes.dropWhile (· != newline) = []) :
    newline ∉ bytes := by
  intro hmem
  have := List.dropWhile_eq_nil_iff.1 h newline hmem
  simp at this

/-- How many of the reads that are left fail. -/
def failures (r : Reader) : Nat := r.countP fun
  | .failure _ => true
  | _ => false

theorem failures_append (first next : Reader) :
    (first ++ next).failures = first.failures + next.failures := List.countP_append

theorem failures_cons_of_ne (h : ∀ text, delivery ≠ .failure text) (rest : Reader) :
    failures (delivery :: rest) = rest.failures := by
  cases delivery with
  | failure text => exact absurd rfl (h text)
  | chunk | interrupted => rfl

/-- A reader is steady if it has no failure left. -/
theorem steady_iff : r.Steady ↔ r.failures = 0 := by
  rw [failures, List.countP_eq_zero]
  constructor
  · intro h delivery hmem
    cases delivery with
    | failure text => exact absurd hmem (h text)
    | chunk | interrupted => simp
  · intro h text hmem
    simpa using h _ hmem

/-- The ways that reading a line can go, of which some octets are there. -/
inductive LineRead (begun : Octets) (r : Reader) :
    Except String (Option Octets) → Reader → Prop where
  /-- A line is read: the first that there is. -/
  | line {line : Octets} {rest : Reader}
      (hpieces : pieces newline (begun ++ r.octets) = line :: pieces newline rest.octets)
      (hfailures : rest.failures = r.failures) : LineRead begun r (.ok (some line)) rest
  /-- There are no more octets. -/
  | ended (hoctets : begun ++ r.octets = []) (hfailures : r.failures = 0) :
      LineRead begun r (.ok none) []
  /-- A read fails; what is behind it is left. -/
  | failed {text : String} {steady rest : Reader} (hreader : r = steady ++ .failure text :: rest)
      (hsteady : steady.Steady) : LineRead begun r (.error text) rest

/-- What is delivered without a failure belongs to the octets that are there. -/
theorem LineRead.cons {begun' : Octets} {answer : Except String (Option Octets)} {left : Reader}
    (h : LineRead begun' rest answer left) (hfirst : ∀ text, delivery ≠ .failure text)
    (hoctets : begun ++ octets (delivery :: rest) = begun' ++ rest.octets) :
    LineRead begun (delivery :: rest) answer left := by
  have hsame := failures_cons_of_ne hfirst rest
  cases h with
  | line hpieces hfailures => exact .line (hoctets ▸ hpieces) (hfailures.trans hsame.symm)
  | ended hnone hfailures => exact .ended (hoctets.trans hnone) (hsame.trans hfailures)
  | failed hreader hsteady =>
    rw [hreader]
    exact .failed (List.cons_append.symm) (hsteady.cons hfirst)

/-- **Reading a line goes one of these ways.** -/
theorem lineRead_readLineFrom (hbegun : newline ∉ begun) :
    LineRead begun r (readLineFrom begun r).1 (readLineFrom begun r).2 := by
  fun_induction readLineFrom begun r with
  | case1 begun =>
    by_cases hnil : begun = []
    · rw [if_pos hnil]
      exact .ended (by rw [hnil]; rfl) rfl
    · rw [if_neg hnil]
      refine .line ?_ rfl
      rw [octets, List.append_nil, pieces_of_not_mem newline hbegun hnil]
      rfl
  | case2 begun text rest => exact .failed (List.nil_append _).symm (steady_iff.2 rfl)
  | case3 begun rest ih => exact (ih hbegun).cons (by simp) rfl
  | case4 begun bytes rest hdrop ih =>
    have hboth : newline ∉ begun ++ bytes :=
      List.not_mem_append hbegun (newline_notMem_of_dropWhile hdrop)
    exact (ih hboth).cons (by simp) (List.append_assoc _ _ _).symm
  | case5 begun bytes rest octet after hdrop =>
    obtain ⟨hfirst, hbytes⟩ := eq_line_append_of_dropWhile hdrop
    generalize bytes.takeWhile (· != newline) = line at hfirst hbytes
    have hline : newline ∉ begun ++ line := List.not_mem_append hbegun hfirst
    refine .line ?_ ?_
    · rw [← pieces_append_sep newline hline, octets, octets, hbytes]
      simp only [List.append_assoc, List.cons_append]
    · rw [failures_cons_of_ne (by simp), failures_cons_of_ne (by simp)]

theorem lineRead_readLine {answer : Except String (Option Octets)}
    (h : r.readLine = (answer, rest)) : LineRead [] r answer rest := by
  have hread : LineRead [] r r.readLine.1 r.readLine.2 :=
    lineRead_readLineFrom List.not_mem_nil
  rwa [h] at hread

/-- A line that is read is the first of those that there are. -/
theorem pieces_of_readLine {line : Octets} (h : r.readLine = (.ok (some line), rest)) :
    pieces newline r.octets = line :: pieces newline rest.octets ∧ rest.failures = r.failures := by
  cases lineRead_readLine h with
  | line hpieces hfailures => exact ⟨hpieces, hfailures⟩

/-- Where no line is read, nothing is left. -/
theorem eq_nil_of_readLine (h : r.readLine = (.ok none, rest)) :
    pieces newline r.octets = [] ∧ r.failures = 0 ∧ rest = [] := by
  cases lineRead_readLine h with
  | ended hoctets hfailures =>
    rw [List.nil_append] at hoctets
    rw [hoctets]
    exact ⟨rfl, hfailures, rfl⟩

theorem not_readLine_error (hr : r.Steady) {text : String} :
    r.readLine ≠ (.error text, rest) := by
  intro h
  cases lineRead_readLine h with
  | failed hreader =>
    refine hr text ?_
    rw [hreader]
    exact List.mem_append_right _ List.mem_cons_self

/-- Where a line is missing, so is a row. -/
theorem rows_of_readLine_none (h : r.readLine = (.ok none, rest)) :
    r.rows = [] ∧ rest.Steady ∧ rest.rows = [] := by
  obtain ⟨hpieces, -, rfl⟩ := eq_nil_of_readLine h
  exact ⟨by rw [rows, hpieces, List.map_nil], steady_iff.2 rfl, rfl⟩

/-- A line that is read is the first row. -/
theorem rows_of_readLine_some (hr : r.Steady) {line : Octets}
    (h : r.readLine = (.ok (some line), rest)) :
    rest.Steady ∧ r.rows = rowOf line :: rest.rows := by
  obtain ⟨hpieces, hfailures⟩ := pieces_of_readLine h
  refine ⟨steady_iff.2 (hfailures.trans (steady_iff.1 hr)), ?_⟩
  rw [rows, hpieces, List.map_cons, rows]

/-- A block that is begun takes the rows that come, until there are eight or no more. -/
theorem fillBlock_of_begun {taken : List String} (hr : r.Steady) (htaken : taken ≠ [])
    (hlen : taken.length ≤ boardSize) :
    (fillBlock taken r).1 = .rows (taken ++ r.rows.take (boardSize - taken.length)) ∧
      (fillBlock taken r).2.Steady ∧
      (fillBlock taken r).2.rows = r.rows.drop (boardSize - taken.length) := by
  fun_induction fillBlock taken r with
  | case1 taken r hfull =>
    have : boardSize - taken.length = 0 := by omega
    simpa [this] using hr
  | case2 taken r hfull text rest h => exact absurd h (not_readLine_error hr)
  | case3 taken r hfull rest h =>
    obtain ⟨hnone, hrest, hafter⟩ := rows_of_readLine_none h
    simpa [htaken, hnone, hafter] using hrest
  | case4 taken r hfull line rest h hlt hblank => exact absurd hblank.1 htaken
  | case5 taken r hfull line rest h hlt hblank ih =>
    obtain ⟨hrest, hrows⟩ := rows_of_readLine_some hr h
    have hmore : boardSize - taken.length = boardSize - (taken ++ [rowOf line]).length + 1 := by
      rw [List.length_append, List.length_singleton]
      omega
    have := ih hrest (by simp) (by rw [List.length_append, List.length_singleton]; omega)
    rw [List.append_assoc, List.singleton_append] at this
    rw [hrows, hmore, List.take_succ_cons, List.drop_succ_cons]
    exact this

/-- **A steady reader hands out the blocks of its rows.** -/
theorem nextBlock_of_steady (hr : r.Steady) :
    r.nextBlock.1 = (blocks r.rows).head?.elim .exhausted .rows ∧ r.nextBlock.2.Steady ∧
      blocks r.nextBlock.2.rows = (blocks r.rows).tail := by
  rw [nextBlock]
  generalize hnil : ([] : List String) = taken
  fun_induction fillBlock taken r with
  | case1 taken r hfull => simp [← hnil, boardSize] at hfull
  | case2 taken r hfull text rest h => exact absurd h (not_readLine_error hr)
  | case3 taken r hfull rest h =>
    obtain ⟨hnone, hrest, hafter⟩ := rows_of_readLine_none h
    rw [hnone, hafter, blocks_nil, if_pos hnil.symm]
    exact ⟨rfl, hrest, rfl⟩
  | case4 taken r hfull line rest h hlt hblank ih =>
    obtain ⟨hrest, hrows⟩ := rows_of_readLine_some hr h
    rw [hrows, blocks_cons_of_blank hblank.2]
    exact ih hrest rfl
  | case5 taken r hfull line rest h hlt hblank ih =>
    obtain ⟨hrest, hrows⟩ := rows_of_readLine_some hr h
    subst hnil
    have hshown : isBlankRow (rowOf line) = false := by simpa using hblank
    have hone : [rowOf line].length ≤ boardSize := by simp [boardSize]
    obtain ⟨hanswer, hsteady, hafter⟩ := fillBlock_of_begun hrest (List.cons_ne_nil _ _) hone
    rw [hrows, blocks_cons_of_shown hshown, List.nil_append]
    exact ⟨hanswer, hsteady, by rw [hafter]; rfl⟩

/-- Readers with the same blocks give the same answers. -/
theorem answers_eq_of_blocks_eq (hr : r.Steady) (hrest : rest.Steady)
    (h : blocks r.rows = blocks rest.rows) (n : Nat) :
    BoardSource.answers n r = BoardSource.answers n rest := by
  induction n generalizing r rest with
  | zero => rfl
  | succ n ih =>
    obtain ⟨hanswer, hsteady, hafter⟩ := nextBlock_of_steady hr
    obtain ⟨hanswer', hsteady', hafter'⟩ := nextBlock_of_steady hrest
    have hnext : (Supply.next r).1 = (Supply.next rest).1 :=
      hanswer.trans (h ▸ hanswer'.symm)
    have hblocks : blocks r.nextBlock.2.rows = blocks rest.nextBlock.2.rows := by
      rw [hafter, hafter', h]
    exact congrArg₂ List.cons hnext (ih hsteady hsteady' hblocks)

/-- **The answers of a steady reader are its blocks, and then none for ever.** -/
theorem answers_of_steady (hr : r.Steady) (extra : Nat) :
    BoardSource.answers ((blocks r.rows).length + extra) r =
      (blocks r.rows).map .rows ++ List.replicate extra .exhausted := by
  generalize hblocks : blocks r.rows = drawings
  induction drawings generalizing r extra with
  | nil =>
    rw [List.length_nil, Nat.zero_add, List.map_nil, List.nil_append]
    induction extra generalizing r with
    | zero => rfl
    | succ extra ih =>
      obtain ⟨hanswer, hsteady, hafter⟩ := nextBlock_of_steady hr
      rw [hblocks] at hanswer hafter
      rw [BoardSource.answers, List.replicate_succ]
      exact congrArg₂ _ hanswer (ih hsteady hafter)
  | cons drawing drawings ih =>
    obtain ⟨hanswer, hsteady, hafter⟩ := nextBlock_of_steady hr
    rw [hblocks] at hanswer hafter
    rw [List.length_cons, Nat.add_right_comm, BoardSource.answers, List.map_cons, List.cons_append]
    exact congrArg₂ _ hanswer (ih hsteady extra hafter)

/-- **Octets that encode a text have the lines of the text as rows.** -/
theorem rows_of_octets_eq {text : String} (h : r.octets = Text.octets text) :
    r.rows = Text.lines text := by
  rw [rows, h, Text.octets, Text.pieces_encode, List.map_map, Text.lines]
  refine List.map_congr_left fun line _ => ?_
  rw [Function.comp_apply, rowOf, Text.decode_encode]

end Reader

end Input
end KingCheck
