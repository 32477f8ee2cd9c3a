import KingCheck.Proofs.Board.RoundTrip
import KingCheck.Proofs.Input.Framing

/-!
# Texts that boards are laid out in

A layout writes boards one after another, with lines that show nothing before, between and
after them, and with returns at the ends of their rows.  A reader of such a text hands out
the rows of the boards and nothing else, however the text is delivered.
-/
namespace KingCheck

open Text (pieces trimReturns)

/-- A line that shows nothing. -/
structure BlankLine where
  chars : List Char
  blank : chars.all Text.isBlank = true
  newline_notMem : '\n' ∉ chars

/-- A board in a text: the blank lines before it, and how many returns end each row of its
drawing. -/
structure Placement where
  before : List BlankLine
  board : Board
  returns : Nat → Nat

/-- Boards in a text, blank lines after them, and whether a newline ends the last line too. -/
structure Layout where
  placements : List Placement
  after : List BlankLine
  ended : Bool

namespace Placement

/-- The lines of the drawing, with their returns. -/
def drawn (p : Placement) : List (List Char) :=
  (pieces '\n' p.board.text.toList).zipIdx.map fun (line, i) =>
    line ++ List.replicate (p.returns i) '\r'

/-- The lines of a board and of what is before it. -/
def lines (p : Placement) : List (List Char) := p.before.map BlankLine.chars ++ p.drawn

end Placement

namespace Layout

/-- The boards, in order. -/
def boards (layout : Layout) : List Board := layout.placements.map Placement.board

/-- All lines. -/
def lines (layout : Layout) : List (List Char) :=
  layout.placements.flatMap Placement.lines ++ layout.after.map BlankLine.chars

/-- The text of the lines. -/
def text (layout : Layout) : String :=
  String.ofList (if layout.ended then layout.lines.flatMap (· ++ ['\n'])
    else ['\n'].intercalate layout.lines)

end Layout

/-- The row that a line of a text is read as. -/
def readRow (line : List Char) : String := String.ofList (trimReturns line)

/-- A blank line is read as a blank row. -/
theorem BlankLine.isBlankRow_readRow (line : BlankLine) :
    Input.isBlankRow (readRow line.chars) = true := by
  rw [Input.isBlankRow, readRow, String.toList_ofList, List.all_eq_true]
  intro c hc
  exact List.all_eq_true.1 line.blank c (Text.mem_of_mem_trimReturns hc)

namespace Placement

variable {p : Placement} {line : List Char}

/-- A line of the drawing is the letters of a row and returns. -/
theorem mem_drawn (h : line ∈ p.drawn) :
    ∃ row n, line = p.board.letters row ++ List.replicate n '\r' := by
  obtain ⟨⟨letters, i⟩, hmem, rfl⟩ := List.mem_map.1 h
  have hletters := List.fst_mem_of_mem_zipIdx hmem
  rw [Board.pieces_text] at hletters
  obtain ⟨row, -, hrow⟩ := List.mem_map.1 hletters
  exact ⟨row, p.returns i, by rw [hrow]⟩

/-- Returns do not change what the drawing is read as. -/
theorem map_readRow_drawn (p : Placement) : p.drawn.map readRow = p.board.rows := by
  have hread : ∀ entry ∈ ((List.finRange boardSize).map p.board.letters).zipIdx,
      readRow (entry.1 ++ List.replicate (p.returns entry.2) '\r') = String.ofList entry.1 := by
    intro entry hentry
    obtain ⟨row, -, hrow⟩ := List.mem_map.1 (List.fst_mem_of_mem_zipIdx hentry)
    rw [readRow, Text.trimReturns_append_replicate, ← hrow,
      Text.trimReturns_of_not_mem (p.board.notMem_letters row (by decide))]
  have hfst := List.zipIdx_map_fst 0 ((List.finRange boardSize).map p.board.letters)
  calc p.drawn.map readRow
      = ((List.finRange boardSize).map p.board.letters).zipIdx.map
          (fun entry => String.ofList entry.1) := by
        rw [drawn, Board.pieces_text, List.map_map]
        exact List.map_congr_left hread
    _ = (((List.finRange boardSize).map p.board.letters).zipIdx.map Prod.fst).map
          String.ofList := by rw [List.map_map]; rfl
    _ = p.board.rows := by rw [hfst, List.map_map]; rfl

theorem newline_notMem_of_mem_lines (h : line ∈ p.lines) : '\n' ∉ line := by
  rcases List.mem_append.1 h with hblank | hdrawn
  · obtain ⟨blank, -, rfl⟩ := List.mem_map.1 hblank
    exact blank.newline_notMem
  · obtain ⟨row, n, rfl⟩ := mem_drawn hdrawn
    rw [List.mem_append, not_or]
    refine ⟨p.board.notMem_letters row (by decide), fun hmem => ?_⟩
    exact absurd (List.eq_of_mem_replicate hmem) (by decide)

/-- The last line of a board is one of its drawing, which is not empty. -/
theorem getLast?_lines_ne (p : Placement) : p.lines.getLast? ≠ some [] := by
  intro h
  have hdrawn : p.drawn ≠ [] := by
    intro hnil
    have := congrArg List.length p.map_readRow_drawn
    simp [hnil, boardSize] at this
  rw [lines, List.getLast?_append] at h
  cases hlast : p.drawn.getLast? with
  | none => exact hdrawn (List.getLast?_eq_none_iff.1 hlast)
  | some line =>
    obtain ⟨row, n, hline⟩ := mem_drawn (List.mem_of_getLast? hlast)
    obtain rfl : line = [] := by simpa [hlast] using h
    exact p.board.letters_ne_nil row (List.append_eq_nil_iff.1 hline.symm).1

/-- The blocks of placed boards are their rows, with only blank rows after them. -/
theorem blocks_rows (placements : List Placement) {blanks : List String}
    (hblanks : ∀ row ∈ blanks, Input.isBlankRow row = true) :
    Input.blocks ((placements.flatMap Placement.lines).map readRow ++ blanks) =
      placements.map (·.board.rows) := by
  induction placements with
  | nil => exact Input.blocks_of_blank hblanks
  | cons p placements ih =>
    have hbefore : ∀ row ∈ (p.before.map BlankLine.chars).map readRow,
        Input.isBlankRow row = true := by
      intro row hrow
      rw [List.map_map] at hrow
      obtain ⟨line, -, rfl⟩ := List.mem_map.1 hrow
      exact line.isBlankRow_readRow
    rw [List.flatMap_cons, List.map_append, lines, List.map_append, map_readRow_drawn,
      List.append_assoc, List.append_assoc, Input.blocks_append_of_blank hbefore,
      Input.blocks_append p.board.length_rows fun row hrow =>
        p.board.wellDrawn_rows.isBlankRow_eq_false (List.mem_of_head? hrow), ih, List.map_cons]

end Placement

namespace Layout

variable (layout : Layout)

theorem newline_notMem_lines : ∀ line ∈ layout.lines, '\n' ∉ line := by
  intro line hline
  rcases List.mem_append.1 hline with hplaced | hafter
  · obtain ⟨p, -, hp⟩ := List.mem_flatMap.1 hplaced
    exact Placement.newline_notMem_of_mem_lines hp
  · obtain ⟨blank, -, rfl⟩ := List.mem_map.1 hafter
    exact blank.newline_notMem

theorem getLast?_placed_ne (placements : List Placement) :
    (placements.flatMap Placement.lines).getLast? ≠ some [] := by
  induction placements with
  | nil => simp
  | cons p placements ih =>
    rw [List.flatMap_cons, List.getLast?_append]
    cases hlast : (placements.flatMap Placement.lines).getLast? with
    | none => exact p.getLast?_lines_ne
    | some line => rwa [hlast] at ih

/-- A text has the lines it is made of, or all but an empty one after the boards. -/
theorem pieces_text : ∃ after, (∀ line ∈ after, line ∈ layout.after.map BlankLine.chars) ∧
    pieces '\n' layout.text.toList = layout.placements.flatMap Placement.lines ++ after := by
  rw [text, String.toList_ofList]
  cases layout.ended with
  | true => exact ⟨_, fun line h => h, Text.pieces_flatMap layout.newline_notMem_lines⟩
  | false =>
    rw [if_neg (by decide), Text.pieces_intercalate layout.newline_notMem_lines]
    by_cases hafter : layout.after.map BlankLine.chars = []
    · have hlast := getLast?_placed_ne layout.placements
      refine ⟨[], fun line h => absurd h List.not_mem_nil, ?_⟩
      rw [lines, hafter, List.append_nil, if_neg hlast]
    · rw [lines]
      split
      next =>
        refine ⟨_, fun line h => ?_, List.dropLast_append_of_ne_nil hafter⟩
        exact (List.dropLast_sublist _).mem h
      next => exact ⟨_, fun line h => h, rfl⟩

/-- The blocks of the text's lines are the rows of the boards. -/
theorem blocks_lines_text :
    Input.blocks (Text.lines layout.text) = layout.boards.map Board.rows := by
  obtain ⟨after, hafter, hpieces⟩ := layout.pieces_text
  have hblanks : ∀ row ∈ after.map readRow, Input.isBlankRow row = true := by
    intro row hrow
    obtain ⟨line, hline, rfl⟩ := List.mem_map.1 hrow
    obtain ⟨blank, -, rfl⟩ := List.mem_map.1 (hafter line hline)
    exact blank.isBlankRow_readRow
  have hlines : Text.lines layout.text = (pieces '\n' layout.text.toList).map readRow := rfl
  rw [hlines, hpieces, List.map_append, Placement.blocks_rows _ hblanks, boards, List.map_map]
  rfl

/-- **Reading a layout's text gives back its boards.**  A reader that delivers the text in
any way, without a failure, hands out the rows of each board and then no more rows for ever;
and the rows of each board read as the board, kings and all. -/
theorem answers_eq_boards {r : Input.Reader} (hsteady : r.Steady)
    (htext : r.octets = Text.octets layout.text) :
    (∀ extra, BoardSource.answers (layout.boards.length + extra) r =
      layout.boards.map (fun b => .rows b.rows) ++ List.replicate extra .exhausted) ∧
    ∀ b ∈ layout.boards, Board.ofRows b.rows = .ok b := by
  have hblocks : Input.blocks r.rows = layout.boards.map Board.rows := by
    rw [Input.Reader.rows_of_octets_eq htext, blocks_lines_text]
  refine ⟨fun extra => ?_, fun b _ => b.ofRows_rows⟩
  have hanswers := Input.Reader.answers_of_steady hsteady extra
  rw [hblocks, List.length_map, List.map_map] at hanswers
  exact hanswers

/-- Two kings between blank lines, with ever more returns from row to row, and a check with ever
fewer, more blank lines and no newline at the end. -/
def farKings : Layout where
  placements := [
    ⟨[⟨['\r', '\u00a0'], by decide, by decide⟩], .ofCells Drawing.twoKings.cell, id⟩,
    ⟨[⟨[], by decide, by decide⟩, ⟨['\u2003', '\r', ' '], by decide, by decide⟩],
      .ofCells Drawing.rookCheck.cell, (7 - ·)⟩]
  after := [⟨[], by decide, by decide⟩, ⟨['\t'], by decide, by decide⟩]
  ended := false

/-- The text may come in parts, with an interruption in the middle of a row. -/
theorem answers_eq_boards_farKings :
    let octets := Text.octets farKings.text
    let r : Input.Reader := [.chunk (octets.take 7), .interrupted, .chunk (octets.drop 7)]
    r.Steady ∧ r.octets = octets ∧
    BoardSource.answers 4 r =
      [.rows Drawing.twoKings, .rows Drawing.rookCheck, .exhausted, .exhausted] := by
  intro octets r
  have hsteady : r.Steady := by
    intro text h
    simp [r] at h
  have htext : r.octets = octets := by
    simp [r, Input.Reader.octets, List.take_append_drop]
  have hanswers := (answers_eq_boards farKings hsteady htext).1 2
  refine ⟨hsteady, htext, hanswers.trans ?_⟩
  decide +kernel

end Layout
end KingCheck
