import KingCheck.Board.Rows
import KingCheck.Proofs.Search

/-!
# Which rows draw a board

A drawing is eight rows of eight letters out of thirteen, each of which draws one cell.  Rows that
are drawn so are read as the board with those cells.  Of all others the first defect is told: the
number of rows before any row, then the first row that is not sound, its width before its letters,
and of these the first that draws no cell.  Rows below the told one are not asked.
-/
namespace KingCheck

namespace Cell

/-- The letters of a drawing. -/
def letters : List Char := ['.', 'p', 'n', 'b', 'r', 'q', 'k', 'P', 'N', 'B', 'R', 'Q', 'K']

/-- What each letter draws: a dot the vacant cell, a small letter a black piece and a capital a
white one. -/
def key : List (Char × Cell) :=
  [('.', vacant), ('p', ⟨.pawn, .black⟩), ('n', ⟨.knight, .black⟩), ('b', ⟨.bishop, .black⟩),
    ('r', ⟨.rook, .black⟩), ('q', ⟨.queen, .black⟩), ('k', ⟨.king, .black⟩), ('P', ⟨.pawn, .white⟩),
    ('N', ⟨.knight, .white⟩), ('B', ⟨.bishop, .white⟩), ('R', ⟨.rook, .white⟩),
    ('Q', ⟨.queen, .white⟩), ('K', ⟨.king, .white⟩)]

variable {letter : Char} {c : Cell}

/-- A letter decodes as the key says. -/
theorem ofChar?_eq_some_iff_mem_key : ofChar? letter = some c ↔ (letter, c) ∈ key := by
  have hdecoded : ∀ c ∈ alphabet, (c.toChar, c) ∈ key := by decide
  have hlisted : ∀ p ∈ key, p.2.tidy = p.2 ∧ p.2.toChar = p.1 := by decide
  rw [ofChar?_eq_some_iff]
  constructor
  · rintro ⟨htidy, rfl⟩
    exact hdecoded c (mem_alphabet.2 htidy)
  · intro h
    exact hlisted (letter, c) h

theorem map_fst_key : key.map Prod.fst = letters := rfl

/-- The letters that decode are those of a drawing. -/
theorem ofChar?_isSome_iff : (ofChar? letter).isSome = true ↔ letter ∈ letters := by
  rw [Option.isSome_iff_exists, ← map_fst_key, List.mem_map]
  constructor
  · intro h
    obtain ⟨c, hc⟩ := h
    exact ⟨(letter, c), ofChar?_eq_some_iff_mem_key.1 hc, rfl⟩
  · rintro ⟨⟨letter, c⟩, hmem, rfl⟩
    exact ⟨c, ofChar?_eq_some_iff_mem_key.2 hmem⟩

end Cell

/-- The number of rows that are read until a defect is found. -/
def Defect.rowsRead : Defect → Nat
  | .rowCount _ => 0
  | .rowWidth row _ => row + 1
  | .character _ row _ => row + 1

namespace Drawing

/-- A row of eight letters, each of which draws a cell. -/
def SoundRow (line : String) : Prop :=
  line.length = boardSize ∧ ∀ letter ∈ line.toList, letter ∈ Cell.letters

/-- Rows that draw a board. -/
structure WellDrawn (rows : Drawing) : Prop where
  count : rows.length = boardSize
  sound : ∀ line ∈ rows, SoundRow line

/-- The cell that the rows draw on a square. -/
def Draws (rows : Drawing) (s : Square) (c : Cell) : Prop :=
  ∃ line letter, rows[s.row.val]? = some line ∧ line.toList[s.col.val]? = some letter ∧
    (letter, c) ∈ Cell.key

/-- Reading gets to this row: there are eight, and those above it are sound. -/
structure Reached (rows : Drawing) (row : Nat) (line : String) : Prop where
  count : rows.length = boardSize
  getElem? : rows[row]? = some line
  above : ∀ i < row, ∀ line', rows[i]? = some line' → SoundRow line'

/-- The defect that comes first: the number of rows, then the rows from the top, and of a row its
width, then its letters from the left. -/
inductive FirstDefect (rows : Drawing) : Defect → Prop where
  | rowCount (count : rows.length ≠ boardSize) : FirstDefect rows (.rowCount rows.length)
  | rowWidth {row : Nat} {line : String} (reached : rows.Reached row line)
      (width : line.length ≠ boardSize) : FirstDefect rows (.rowWidth row line.length)
  | character {row col : Nat} {line : String} {letter : Char} (reached : rows.Reached row line)
      (width : line.length = boardSize) (letter_eq : line.toList[col]? = some letter)
      (left : ∀ j < col, ∀ letter', line.toList[j]? = some letter' → letter' ∈ Cell.letters)
      (unknown : letter ∉ Cell.letters) : FirstDefect rows (.character letter row col)

variable {rows rows' : Drawing} {row : Nat} {line : String} {d : Defect} {s : Square} {c : Cell}

/-! ### One row -/

theorem letterDefect?_eq_none_iff {letters : List Char} :
    letterDefect? row letters = none ↔ ∀ letter ∈ letters, letter ∈ Cell.letters := by
  rw [letterDefect?, List.findSome?_eq_none_iff]
  constructor
  · intro h letter hletter
    obtain ⟨col, hcol⟩ := List.mem_iff_getElem?.1 hletter
    have hnone := h (letter, col) (List.mk_mem_zipIdx_iff_getElem?.2 hcol)
    rw [← Cell.ofChar?_isSome_iff, Option.isSome_iff_ne_none]
    simpa using hnone
  · intro h ⟨letter, col⟩ hmember
    have hletter : letter ∈ Cell.letters := h letter (List.fst_mem_of_mem_zipIdx hmember)
    exact if_pos (Cell.ofChar?_isSome_iff.2 hletter)

/-- The letters of a row are searched from the left. -/
theorem letterDefect?_eq_some_iff {letters : List Char} :
    letterDefect? row letters = some d ↔ ∃ col letter, letters[col]? = some letter ∧
      (∀ j < col, ∀ letter', letters[j]? = some letter' → letter' ∈ Cell.letters) ∧
      letter ∉ Cell.letters ∧ d = .character letter row col := by
  rw [letterDefect?, findSome?_zipIdx_eq_some_iff]
  simp only [Cell.ofChar?_isSome_iff]
  constructor
  · intro h
    obtain ⟨col, letter, hletter, hd, hleft⟩ := h
    have hunknown : letter ∉ Cell.letters := by
      intro hmem
      simp [hmem] at hd
    rw [if_neg hunknown, Option.some.injEq] at hd
    refine ⟨col, letter, hletter, ?_, hunknown, hd.symm⟩
    intro j hj letter' hletter'
    simpa using hleft j hj letter' hletter'
  · intro h
    obtain ⟨col, letter, hletter, hleft, hunknown, rfl⟩ := h
    refine ⟨col, letter, hletter, if_neg hunknown, ?_⟩
    intro j hj letter' hletter'
    rw [if_pos (hleft j hj letter' hletter')]

/-- A row has no defect exactly if it is sound. -/
theorem rowDefect?_eq_none_iff : rowDefect? row line.toList = none ↔ SoundRow line := by
  rw [rowDefect?, SoundRow, String.length_toList]
  by_cases hwidth : line.length = boardSize
  · rw [if_pos hwidth, letterDefect?_eq_none_iff]
    simp [hwidth]
  · simp [hwidth]

/-- The width of a row comes before its letters. -/
theorem rowDefect?_eq_some_iff : rowDefect? row line.toList = some d ↔
    (line.length ≠ boardSize ∧ d = .rowWidth row line.length) ∨
      (line.length = boardSize ∧ letterDefect? row line.toList = some d) := by
  rw [rowDefect?, String.length_toList]
  by_cases hwidth : line.length = boardSize
  · simp [hwidth]
  · simp [hwidth, eq_comm]

/-! ### All rows -/

/-- Rows have no defect exactly if they draw a board. -/
theorem defect?_eq_none_iff : rows.defect? = none ↔ rows.WellDrawn := by
  rw [defect?]
  by_cases hcount : rows.length = boardSize
  · rw [if_pos hcount, List.findSome?_eq_none_iff]
    constructor
    · intro h
      refine ⟨hcount, fun line hline => ?_⟩
      obtain ⟨row, hrow⟩ := List.mem_iff_getElem?.1 hline
      exact rowDefect?_eq_none_iff.1 (h (line, row) (List.mk_mem_zipIdx_iff_getElem?.2 hrow))
    · intro h member hmember
      exact rowDefect?_eq_none_iff.2 (h.sound member.1 (List.fst_mem_of_mem_zipIdx hmember))
  · rw [if_neg hcount]
    constructor
    · intro h
      simp at h
    · intro h
      exact absurd h.count hcount

/-- Of eight rows the defect of the first that is not sound is told. -/
theorem defect?_eq_some_iff_reached (hcount : rows.length = boardSize) :
    rows.defect? = some d ↔
      ∃ row line, rows.Reached row line ∧ rowDefect? row line.toList = some d := by
  rw [defect?, if_pos hcount, findSome?_zipIdx_eq_some_iff]
  simp only [rowDefect?_eq_none_iff]
  constructor
  · intro h
    obtain ⟨row, line, hline, hd, habove⟩ := h
    exact ⟨row, line, ⟨hcount, hline, habove⟩, hd⟩
  · intro h
    obtain ⟨row, line, hreached, hd⟩ := h
    exact ⟨row, line, hreached.getElem?, hd, hreached.above⟩

/-- **The defect that is told is the one that comes first.** -/
theorem defect?_eq_some_iff : rows.defect? = some d ↔ rows.FirstDefect d := by
  by_cases hcount : rows.length = boardSize
  · rw [defect?_eq_some_iff_reached hcount]
    constructor
    · intro h
      obtain ⟨row, line, hreached, hd⟩ := h
      rcases rowDefect?_eq_some_iff.1 hd with ⟨hwidth, rfl⟩ | ⟨hwidth, hletter⟩
      · exact .rowWidth hreached hwidth
      · obtain ⟨col, letter, hget, hleft, hunknown, rfl⟩ := letterDefect?_eq_some_iff.1 hletter
        exact .character hreached hwidth hget hleft hunknown
    · intro h
      cases h with
      | rowCount hother => exact absurd hcount hother
      | rowWidth hreached hwidth =>
        exact ⟨_, _, hreached, rowDefect?_eq_some_iff.2 (.inl ⟨hwidth, rfl⟩)⟩
      | character hreached hwidth hget hleft hunknown =>
        refine ⟨_, _, hreached, rowDefect?_eq_some_iff.2 (.inr ⟨hwidth, ?_⟩)⟩
        exact letterDefect?_eq_some_iff.2 ⟨_, _, hget, hleft, hunknown, rfl⟩
  · rw [defect?, if_neg hcount, Option.some.injEq]
    constructor
    · rintro rfl
      exact .rowCount hcount
    · intro h
      cases h with
      | rowCount _ => rfl
      | rowWidth hreached _ => exact absurd hreached.count hcount
      | character hreached _ _ _ _ => exact absurd hreached.count hcount

/-- Reading gets to the same row where no row down to it changes. -/
theorem Reached.of_take (h : rows.Reached row line) (hlength : rows'.length = rows.length)
    (htake : rows'.take (row + 1) = rows.take (row + 1)) : rows'.Reached row line := by
  have hsame : ∀ i ≤ row, rows'[i]? = rows[i]? := by
    intro i hi
    have hget := congrArg (fun upper => upper[i]?) htake
    simpa only [List.getElem?_take_of_lt (Nat.lt_succ_of_le hi)] using hget
  refine ⟨hlength.trans h.count, (hsame row (Nat.le_refl row)).trans h.getElem?, ?_⟩
  intro i hi line' hline'
  exact h.above i hi line' ((hsame i (Nat.le_of_lt hi)) ▸ hline')

/-- Rows below the one with the first defect have no say in it, nor has any row if their number
is wrong. -/
theorem FirstDefect.of_take (h : rows.FirstDefect d) (hlength : rows'.length = rows.length)
    (htake : rows'.take d.rowsRead = rows.take d.rowsRead) : rows'.FirstDefect d := by
  cases h with
  | rowCount count =>
    rw [← hlength] at count ⊢
    exact .rowCount count
  | rowWidth reached width => exact .rowWidth (reached.of_take hlength htake) width
  | character reached width letter_eq left unknown =>
    exact .character (reached.of_take hlength htake) width letter_eq left unknown

/-! ### The cells -/

/-- What the rows draw on a square is what is read there. -/
theorem Draws.cell_eq (h : rows.Draws s c) : rows.cell s = c := by
  obtain ⟨line, letter, hline, hletter, hkey⟩ := h
  simp only [cell, hline, Option.bind_some, hletter, Cell.ofChar?_eq_some_iff_mem_key.2 hkey,
    Option.getD_some]

/-- Rows that draw a board draw something on each square. -/
theorem WellDrawn.draws (h : rows.WellDrawn) (s : Square) : ∃ c, rows.Draws s c := by
  have hrow : s.row.val < rows.length := by
    rw [h.count]
    exact s.row.isLt
  obtain ⟨hwidth, hletters⟩ := h.sound rows[s.row.val] (List.getElem_mem hrow)
  have hcol : s.col.val < rows[s.row.val].toList.length := by
    rw [String.length_toList, hwidth]
    exact s.col.isLt
  have hletter := hletters rows[s.row.val].toList[s.col.val] (List.getElem_mem hcol)
  obtain ⟨c, hc⟩ := Option.isSome_iff_exists.1 (Cell.ofChar?_isSome_iff.2 hletter)
  exact ⟨c, rows[s.row.val], rows[s.row.val].toList[s.col.val], List.getElem?_eq_getElem hrow,
    List.getElem?_eq_getElem hcol, Cell.ofChar?_eq_some_iff_mem_key.1 hc⟩

/-- A cell that is drawn is stored as it is. -/
theorem Draws.tidy_eq (h : rows.Draws s c) : c.tidy = c := by
  obtain ⟨line, letter, -, -, hkey⟩ := h
  exact (Cell.ofChar?_eq_some_iff.1 (Cell.ofChar?_eq_some_iff_mem_key.2 hkey)).1

end Drawing

namespace Board

variable {rows : Drawing} {b : Board}

/-- The board that is read is the one with the drawn cells. -/
theorem ofRows_eq_ok_iff_draws :
    ofRows rows = .ok b ↔ rows.WellDrawn ∧ ∀ s, rows.Draws s (b.cell s) := by
  rw [ofRows_eq_ok_iff, Drawing.defect?_eq_none_iff]
  constructor
  · rintro ⟨hwell, rfl⟩
    refine ⟨hwell, fun s => ?_⟩
    obtain ⟨c, hc⟩ := hwell.draws s
    rw [cell_ofCells, hc.cell_eq, hc.tidy_eq]
    exact hc
  · intro h
    obtain ⟨hwell, hdraws⟩ := h
    have hcell : rows.cell = b.cell := funext fun s => (hdraws s).cell_eq
    rw [hcell, ofCells_cell]
    exact ⟨hwell, rfl⟩

/-- Rows are refused with the defect that comes first. -/
theorem ofRows_eq_error_iff_firstDefect {e : BoardError} :
    ofRows rows = .error e ↔ ∃ d, rows.FirstDefect d ∧ e = .malformed d := by
  simp only [ofRows_eq_error_iff, Drawing.defect?_eq_some_iff]

/-- Rows are accepted exactly if they draw a board. -/
theorem exists_ofRows_eq_ok_iff : (∃ b, ofRows rows = .ok b) ↔ rows.WellDrawn := by
  rw [← Drawing.defect?_eq_none_iff, ofRows]
  cases rows.defect? <;> simp

/-- All other rows are refused for a defect. -/
theorem exists_ofRows_eq_malformed_iff :
    (∃ d, ofRows rows = .error (.malformed d)) ↔ ¬ rows.WellDrawn := by
  rw [← Drawing.defect?_eq_none_iff, ofRows]
  cases rows.defect? <;> simp

/-- **Reading accepts what is drawn by the grammar, and tells the first defect of all else.**
Rows are accepted exactly if they are eight of eight letters each, all of them letters of a
drawing, and the board then has on each square the cell that the letter there stands for.  Rows
that are refused are refused for the defect that comes first, whatever the rows below it are. -/
theorem ofRows_follows_grammar (rows : Drawing) :
    ((∃ b, ofRows rows = .ok b) ↔ rows.WellDrawn) ∧
    (∀ b, ofRows rows = .ok b ↔ rows.WellDrawn ∧ ∀ s, rows.Draws s (b.cell s)) ∧
    (∀ e, ofRows rows = .error e ↔ ∃ d, rows.FirstDefect d ∧ e = .malformed d) ∧
    ∀ d, rows.FirstDefect d → ∀ rows' : Drawing, rows'.length = rows.length →
      rows'.take d.rowsRead = rows.take d.rowsRead → ofRows rows' = .error (.malformed d) := by
  refine ⟨⟨?_, ?_⟩, fun _ => ofRows_eq_ok_iff_draws, fun _ => ofRows_eq_error_iff_firstDefect, ?_⟩
  · intro h
    obtain ⟨b, hb⟩ := h
    exact (ofRows_eq_ok_iff_draws.1 hb).1
  · intro h
    exact ⟨ofCells rows.cell, (ofRows_eq_ok_iff _).2 ⟨Drawing.defect?_eq_none_iff.2 h, rfl⟩⟩
  · intro d hd rows' hlength htake
    exact ofRows_eq_error_iff_firstDefect.2 ⟨d, hd.of_take hlength htake, rfl⟩

/-- In the second row the Kelvin sign and a question mark draw nothing, and the third row is too
short. -/
def kelvinRows : Drawing :=
  ["rnbqkbnr", "ppp\u212ap?pp", "..", "........", "........", "........", "........", "........"]

/-- The same first rows with nothing below. -/
def kelvinAbove : Drawing := kelvinRows.take 2 ++ List.replicate 6 ""

/-- The Kelvin sign is told, whatever is below it. -/
theorem ofRows_follows_grammar_kelvin :
    kelvinRows.FirstDefect (.character '\u212a' 1 3) ∧
    kelvinAbove.length = kelvinRows.length ∧ kelvinAbove.take 2 = kelvinRows.take 2 ∧
    ofRows kelvinAbove = .error (.malformed (.character '\u212a' 1 3)) :=
  have hdefect : kelvinRows.FirstDefect (.character '\u212a' 1 3) :=
    Drawing.defect?_eq_some_iff.1 (by decide)
  ⟨hdefect, rfl, rfl, (ofRows_follows_grammar kelvinRows).2.2.2 _ hdefect kelvinAbove rfl rfl⟩

example : (BoardError.malformed (.character '\u212a' 1 3)).message =
    "Malformed board: unrecognized character '\u212a' at row 1, column 3" := by decide +kernel

end Board
end KingCheck
