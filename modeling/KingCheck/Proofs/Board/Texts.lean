import KingCheck.Proofs.Board.RoundTrip
import KingCheck.Proofs.Text.Returns

/-!
# Texts that draw a board

A board has many texts: returns may stand at the ends of lines, and a newline at the end of all.
Cleaned up, each of them is the drawing of the board, and no other text reads as a board
(`ofText_eq_ok_iff`).  So the drawing is one of the texts, stands for all of them, and tells the
board.
-/
namespace KingCheck.Board

variable (b : Board) {s : String}

/-- A text reads as a board exactly if its lines are the rows that draw it. -/
theorem ofText_eq_ok_iff_lines : ofText s = .ok b ↔ Text.lines s = b.rows :=
  b.ofRows_eq_ok_iff_rows

/-- The lines of a board's drawing are its rows. -/
theorem lines_text : Text.lines b.text = b.rows := by
  rw [Text.lines, pieces_text, List.map_map, rows]
  refine List.map_congr_left fun row _ => ?_
  rw [Function.comp_apply, Text.trimReturns_of_not_mem (b.notMem_letters row (by decide))]

/-- **Reading the drawing of a board gives the board back.** -/
theorem ofText_text : ofText b.text = .ok b := b.ofText_eq_ok_iff_lines.2 b.lines_text

/-- Lines that make up the drawing are the rows. -/
theorem lines_eq_rows_of_intercalate (h : "\n".intercalate (Text.lines s) = b.text) :
    Text.lines s = b.rows := by
  have hlines : ∀ line ∈ (Text.lines s).map String.toList, '\n' ∉ line := by
    intro line hline
    obtain ⟨row, hrow, rfl⟩ := List.mem_map.1 hline
    exact Text.newline_notMem_of_mem_lines hrow
  have htext : ['\n'].intercalate ((Text.lines s).map String.toList) = b.text.toList := by
    rw [← h, String.toList_intercalate]
    rfl
  have hpieces := Text.pieces_intercalate hlines
  rw [htext, pieces_text] at hpieces
  by_cases hlast : ((Text.lines s).map String.toList).getLast? = some []
  · -- With an empty line behind its rows the drawing would end in a newline of its own.
    obtain ⟨front, hfront⟩ := List.getLast?_eq_some_iff.1 hlast
    rw [if_pos hlast, hfront, List.dropLast_concat] at hpieces
    rw [hfront, Text.intercalate_concat, List.append_nil, ← hpieces,
      Text.flatMap_eq_intercalate (by simp), ← toList_text] at htext
    simp at htext
  · rw [if_neg hlast] at hpieces
    rw [rows, ← Function.comp_def, ← List.map_map, hpieces, List.map_map]
    simp

/-- **A text reads as a board exactly if it is the drawing of the board once it is cleaned up.** -/
theorem ofText_eq_ok_iff : ofText s = .ok b ↔ Text.cleaned s = b.text := by
  rw [ofText_eq_ok_iff_lines, Text.cleaned_eq]
  constructor
  · intro h
    rw [h, text]
  · exact b.lines_eq_rows_of_intercalate

/-- **Reading and drawing are inverse.**  The drawing of a board reads as the board, and a text
reads as a board exactly if it is the board's drawing once it is cleaned up.  So boards are
the same if they are drawn alike, and texts that are read are of the same board if they are the
same once they are cleaned up, or have the same lines. -/
theorem text_ofText_inverse :
    (∀ b : Board, ofText b.text = .ok b) ∧
    (∀ (s : String) (b : Board), ofText s = .ok b ↔ Text.cleaned s = b.text) ∧
    (∀ a b : Board, a = b ↔ a.text = b.text) ∧
    ∀ (s t : String) (a b : Board), ofText s = .ok a → ofText t = .ok b →
      (a = b ↔ Text.cleaned s = Text.cleaned t) ∧ (a = b ↔ Text.lines s = Text.lines t) := by
  have htext : ∀ a b : Board, a = b ↔ a.text = b.text := by
    intro a b
    refine ⟨congrArg text, fun h => ?_⟩
    have hread := a.ofText_text
    rw [h, ofText_text] at hread
    exact (Except.ok.inj hread).symm
  refine ⟨ofText_text, fun s b => b.ofText_eq_ok_iff, htext, fun s t a b hs ht => ⟨?_, ?_⟩⟩
  · rw [a.ofText_eq_ok_iff.1 hs, b.ofText_eq_ok_iff.1 ht]
    exact htext a b
  · constructor
    · rintro rfl
      rw [a.ofText_eq_ok_iff_lines.1 hs, a.ofText_eq_ok_iff_lines.1 ht]
    · intro h
      rw [htext, ← a.ofText_eq_ok_iff.1 hs, ← b.ofText_eq_ok_iff.1 ht, Text.cleaned_eq,
        Text.cleaned_eq, h]

/-- A drawing with two returns and a newline at the end of each line, and the same with one return
between lines, are texts of one board. -/
theorem text_ofText_inverse_twoKings :
    let b := ofCells Drawing.twoKings.cell
    let ended := String.join (Drawing.twoKings.map (· ++ "\r\r\n"))
    let between := "\r\n".intercalate Drawing.twoKings
    ofText ended = .ok b ∧ ofText between = .ok b ∧ Text.cleaned ended = Text.cleaned between ∧
      Text.lines ended = Text.lines between := by
  intro b ended between
  obtain ⟨-, hcleaned, -, hsame⟩ := text_ofText_inverse
  have hended : ofText ended = .ok b := (hcleaned ended b).2 (by decide +kernel)
  have hbetween : ofText between = .ok b := (hcleaned between b).2 (by decide +kernel)
  obtain ⟨hclean, hlines⟩ := hsame ended between b b hended hbetween
  exact ⟨hended, hbetween, hclean.1 rfl, hlines.1 rfl⟩

end KingCheck.Board
