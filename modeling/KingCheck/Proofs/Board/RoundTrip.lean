import KingCheck.Input.Source
import KingCheck.Proofs.Board.Grammar
import KingCheck.Proofs.Text.Lines

/-!
# Drawing a board and reading it

The rows that draw a board have no defect, and reading them gives the board back, with
its kings.  No other rows read as the board (`ofRows_eq_ok_iff_rows`).
-/
namespace KingCheck

/-- A letter of a drawing shows. -/
theorem Cell.isBlank_of_mem_letters {letter : Char} (h : letter ∈ letters) :
    Text.isBlank letter = false := by
  have hshown : letters.all (fun letter => !Text.isBlank letter) = true := by decide
  simpa using List.all_eq_true.1 hshown letter h

/-- A drawing of a board shows something in each row. -/
theorem Drawing.WellDrawn.isBlankRow_eq_false {rows : Drawing} (h : rows.WellDrawn)
    {row : String} (hrow : row ∈ rows) :
    Input.isBlankRow row = false := by
  obtain ⟨hwidth, hletters⟩ := h.sound row hrow
  have hfirst : 0 < row.toList.length := by
    rw [String.length_toList, hwidth]
    decide
  rw [Input.isBlankRow, List.all_eq_false]
  refine ⟨row.toList[0], List.getElem_mem hfirst, ?_⟩
  rw [Cell.isBlank_of_mem_letters (hletters _ (List.getElem_mem hfirst))]
  decide

namespace Board

variable (b : Board) (row : Fin boardSize)

@[simp] theorem length_letters : (b.letters row).length = boardSize := by
  simp [letters]

@[simp] theorem length_rows : b.rows.length = boardSize := by
  simp [rows]

/-- The letters of a row are drawn by its cells. -/
theorem getElem?_letters (col : Fin boardSize) :
    (b.letters row)[col.val]? = some (b.cell ⟨row, col⟩).toChar := by
  have hlen : col.val < (b.letters row).length := by simp
  rw [List.getElem?_eq_getElem hlen]
  simp [letters, cell, Grid.cell]

theorem getElem?_rows : b.rows[row.val]? = some (String.ofList (b.letters row)) := by
  have hlen : row.val < b.rows.length := by simp
  rw [List.getElem?_eq_getElem hlen]
  simp [rows]

/-- The letter of a stored cell decodes to it. -/
theorem ofChar?_toChar_cell (s : Square) : Cell.ofChar? (b.cell s).toChar = some (b.cell s) :=
  Cell.ofChar?_eq_some_iff.2 ⟨b.tidy_cell_eq s, rfl⟩

/-- A letter of a row is one of a drawing. -/
theorem mem_letters_of_mem {letter : Char} (h : letter ∈ b.letters row) :
    letter ∈ Cell.letters := by
  obtain ⟨i, hi, rfl⟩ := List.getElem_of_mem h
  have hcol : i < boardSize := by simpa using hi
  have hget := b.getElem?_letters row ⟨i, hcol⟩
  rw [List.getElem?_eq_getElem hi, Option.some.injEq] at hget
  rw [← Cell.ofChar?_isSome_iff, hget, ofChar?_toChar_cell]
  rfl

/-- The rows of a board are drawn by the grammar. -/
theorem wellDrawn_rows : b.rows.WellDrawn := by
  refine ⟨b.length_rows, fun line hline => ?_⟩
  obtain ⟨row, -, rfl⟩ := List.mem_map.1 hline
  refine ⟨by rw [String.length_ofList, length_letters], fun letter hletter => ?_⟩
  rw [String.toList_ofList] at hletter
  exact b.mem_letters_of_mem row hletter

/-- The rows draw each cell where it stands. -/
theorem draws_rows (s : Square) : b.rows.Draws s (b.cell s) := by
  refine ⟨String.ofList (b.letters s.row), (b.cell s).toChar, b.getElem?_rows s.row, ?_, ?_⟩
  · rw [String.toList_ofList]
    exact b.getElem?_letters s.row s.col
  · exact Cell.ofChar?_eq_some_iff_mem_key.1 (b.ofChar?_toChar_cell s)

/-- **Reading the rows that draw a board gives the board back.** -/
theorem ofRows_rows : ofRows b.rows = .ok b :=
  ofRows_eq_ok_iff_draws.2 ⟨b.wellDrawn_rows, b.draws_rows⟩

/-- A row that draws the cells of a board's row is that row. -/
theorem eq_letters_of_draws {line : String} (hlength : line.length = boardSize)
    (h : ∀ col, ∃ letter, line.toList[col.val]? = some letter ∧
      (letter, b.cell ⟨row, col⟩) ∈ Cell.key) : line = String.ofList (b.letters row) := by
  rw [← String.toList_inj, String.toList_ofList]
  have hlengths : line.toList.length = (b.letters row).length := by
    rw [String.length_toList, hlength, length_letters]
  refine List.ext_getElem hlengths fun col hcol hcol' => ?_
  obtain ⟨letter, hletter, hkey⟩ := h ⟨col, by simpa using hcol'⟩
  have hdrawn := b.getElem?_letters row ⟨col, by simpa using hcol'⟩
  have hchar := (Cell.ofChar?_eq_some_iff.1 (Cell.ofChar?_eq_some_iff_mem_key.2 hkey)).2
  rw [List.getElem?_eq_getElem hcol, Option.some.injEq] at hletter
  rw [List.getElem?_eq_getElem hcol', Option.some.injEq] at hdrawn
  rw [hletter, hdrawn, hchar]

/-- **The rows that draw a board are the only ones that read as it.** -/
theorem ofRows_eq_ok_iff_rows {rows : Drawing} : ofRows rows = .ok b ↔ rows = b.rows := by
  constructor
  · intro h
    obtain ⟨hwell, hdraws⟩ := ofRows_eq_ok_iff_draws.1 h
    refine List.ext_getElem (hwell.count.trans b.length_rows.symm) fun row hrow hrow' => ?_
    have hdrawn := b.getElem?_rows ⟨row, by simpa using hrow'⟩
    rw [List.getElem?_eq_getElem hrow', Option.some.injEq] at hdrawn
    rw [hdrawn]
    refine b.eq_letters_of_draws _ (hwell.sound _ (List.getElem_mem hrow)).1 fun col => ?_
    obtain ⟨line, letter, hline, hletter, hkey⟩ := hdraws ⟨⟨row, by simpa using hrow'⟩, col⟩
    rw [List.getElem?_eq_getElem hrow, Option.some.injEq] at hline
    exact ⟨letter, hline ▸ hletter, hkey⟩
  · rintro rfl
    exact b.ofRows_rows

/-- Every letter of a row shows. -/
theorem isBlank_of_mem_letters {letter : Char} (h : letter ∈ b.letters row) :
    Text.isBlank letter = false :=
  Cell.isBlank_of_mem_letters (b.mem_letters_of_mem row h)

/-- No row holds a blank, a newline or a return. -/
theorem notMem_letters {c : Char} (h : Text.isBlank c = true) : c ∉ b.letters row := by
  intro hmem
  rw [b.isBlank_of_mem_letters row hmem] at h
  exact absurd h (by decide)

theorem letters_ne_nil : b.letters row ≠ [] := by
  intro h
  have := b.length_letters row
  simp [h, boardSize] at this

/-- The text of the drawing is the rows with newlines between them. -/
theorem toList_text :
    b.text.toList = ['\n'].intercalate ((List.finRange boardSize).map b.letters) := by
  have hrows : b.rows.map String.toList = (List.finRange boardSize).map b.letters := by
    rw [rows, List.map_map]
    exact List.map_congr_left fun row _ => String.toList_ofList
  rw [text, String.toList_intercalate, hrows]
  rfl

/-- The lines of the drawing are the rows. -/
theorem pieces_text :
    Text.pieces '\n' b.text.toList = (List.finRange boardSize).map b.letters := by
  have hlines : ∀ line ∈ (List.finRange boardSize).map b.letters, '\n' ∉ line := by
    intro line hline
    obtain ⟨row, -, rfl⟩ := List.mem_map.1 hline
    exact b.notMem_letters row (by decide)
  have hlast : ((List.finRange boardSize).map b.letters).getLast? ≠ some [] := by
    intro hlast
    obtain ⟨row, -, hnil⟩ := List.mem_map.1 (List.mem_of_getLast? hlast)
    exact b.letters_ne_nil row hnil
  rw [toList_text]
  exact (Text.pieces_intercalate hlines).trans (if_neg hlast)

end Board

/-- A king of each side, out of each other's reach. -/
def Drawing.twoKings : Drawing :=
  ["k.......", "........", "........", "........", "........", "........", "........", ".......K"]

/-- A black king that a rook attacks along its column. -/
def Drawing.rookCheck : Drawing :=
  ["k.......", "........", "........", "........", "........", "........", "........", "R......K"]

end KingCheck
