import KingCheck.Proofs.Board.Texts
import KingCheck.Proofs.Input.Acceptance

/-!
# A text at once and line by line

A text is read as a board at once, or a reader delivers its octets and hands out their blocks.
The rows are the same lines either way, without the returns at their ends.  So returns show in
neither (`returns_never_show`), and where a text is one block, the reader hands out what the text
reads as, and nothing else (`Reader.hands_out_text`).
-/
namespace KingCheck.Input

open Text (Octets withReturns)

variable {r r' : Reader} {s : String}

/-- Returns behind a line are read as returns, also where the line ends inside a character. -/
theorem decode_append_returns (line : Octets) (n : Nat) :
    Text.decode (line ++ List.replicate n carriageReturn) =
      Text.decode line ++ List.replicate n '\r' := by
  induction n with
  | zero => simp
  | succ n ih =>
    rw [List.replicate_succ', List.replicate_succ', ← List.append_assoc, ← List.append_assoc,
      Text.decode_append_of_lt (by decide), ih]
    rfl

/-- Returns behind a line do not change its row. -/
theorem rowOf_append_returns (line : Octets) (n : Nat) :
    rowOf (line ++ List.replicate n carriageReturn) = rowOf line := by
  rw [rowOf, rowOf, decode_append_returns, Text.trimReturns_append_replicate]

/-- Octets with returns at the ends of lines have the same rows. -/
theorem Reader.rows_of_withReturns {counts : Nat → Nat}
    (h : r'.octets = withReturns newline carriageReturn counts r.octets) : r'.rows = r.rows := by
  rw [Reader.rows, h]
  exact Text.map_pieces_withReturns (by decide) rowOf_append_returns counts r.octets

/-- A text with returns at the ends of lines has the same lines. -/
theorem lines_withReturns (counts : Nat → Nat) (s : String) :
    Text.lines (String.ofList (withReturns '\n' '\r' counts s.toList)) = Text.lines s := by
  rw [Text.lines, String.toList_ofList]
  refine Text.map_pieces_withReturns (by decide) (fun line n => ?_) counts s.toList
  rw [Text.trimReturns_append_replicate]

/-- **Returns at the ends of lines never show.**  Any number of them may be put in front of each
newline, and behind a last line that has something on it: a reader of octets answers the same,
whatever the octets are and however they are delivered, and a text is read as the same board or
refused for the same reason. -/
theorem returns_never_show (counts : Nat → Nat) :
    (∀ r r' : Reader, r.Steady → r'.Steady →
      r'.octets = withReturns newline carriageReturn counts r.octets →
      ∀ n, BoardSource.answers n r' = BoardSource.answers n r) ∧
    ∀ s : String, Board.ofText (String.ofList (withReturns '\n' '\r' counts s.toList)) =
      Board.ofText s := by
  refine ⟨fun r r' hr hr' h n => ?_, fun s => ?_⟩
  · exact Reader.answers_eq_of_blocks_eq hr' hr (by rw [Reader.rows_of_withReturns h]) n
  · rw [Board.ofText, lines_withReturns, Board.ofText]

/-- A row that ends inside a character, a row of a return alone and a last row that is not ended:
with returns at their ends they are handed out as without, and delivered otherwise. -/
theorem returns_never_show_truncated :
    let bare : Octets := [0x6b, 0xe2, 0x82, newline, carriageReturn, newline, newline, 0x4b]
    let returned := withReturns newline carriageReturn (· + 1) bare
    let r := Reader.ofOctets bare
    let r' : Reader := [.chunk (returned.take 4), .interrupted, .chunk (returned.drop 4)]
    r.Steady ∧ r'.Steady ∧ r'.octets = returned ∧
    BoardSource.answers 2 r' = BoardSource.answers 2 r ∧
    BoardSource.answers 2 r = [.rows ["k\ufffd", "", "", "K"], .exhausted] := by
  intro bare returned r r'
  have hr : r.Steady := Reader.steady_ofOctets bare
  have hr' : r'.Steady := fun _ h => by simp [r'] at h
  have hoctets : r'.octets = returned := by decide +kernel
  exact ⟨hr, hr', hoctets, (returns_never_show (· + 1)).1 r r' hr hr' hoctets 2, by decide +kernel⟩

/-! ### A text of one block -/

/-- Lines of which the first shows something and that are no more than eight are one block. -/
theorem blocks_of_one {first : String} {others : List String} (hfirst : isBlankRow first = false)
    (hlength : (first :: others).length ≤ boardSize) :
    blocks (first :: others) = [first :: others] := by
  have hothers : others.length ≤ boardSize - 1 := by
    rw [List.length_cons] at hlength
    omega
  rw [blocks_cons_of_shown hfirst, List.take_of_length_le hothers,
    List.drop_of_length_le hothers, blocks_nil]

/-- A reader of a text that is one block hands out its lines, and nothing else. -/
theorem Reader.answers_of_one (hr : r.Steady) (hoctets : r.octets = Text.octets s)
    {first : String} {others : List String} (hlines : Text.lines s = first :: others)
    (hfirst : isBlankRow first = false) (hlength : (Text.lines s).length ≤ boardSize)
    (extra : Nat) :
    BoardSource.answers (extra + 1) r =
      .rows (Text.lines s) :: List.replicate extra .exhausted := by
  have hblocks : blocks r.rows = [Text.lines s] := by
    rw [Reader.rows_of_octets_eq hoctets, hlines, blocks_of_one hfirst (hlines ▸ hlength)]
  have hanswers := Reader.answers_of_steady hr extra
  rw [hblocks, List.length_singleton, Nat.add_comm] at hanswers
  exact hanswers

/-- A text that reads as a board has eight lines, and its first line shows something. -/
theorem lines_of_ofText {b : Board} (h : Board.ofText s = .ok b) :
    (Text.lines s).length = boardSize ∧
      ∃ first others, Text.lines s = first :: others ∧ isBlankRow first = false := by
  have hwell : Drawing.WellDrawn (Text.lines s) := (Board.ofRows_eq_ok_iff_draws.1 h).1
  refine ⟨hwell.count, ?_⟩
  cases hlines : Text.lines s with
  | nil => simpa [hlines, boardSize] using hwell.count
  | cons first others =>
    rw [hlines] at hwell
    exact ⟨first, others, rfl, hwell.isBlankRow_eq_false List.mem_cons_self⟩

/-- Lines that are not eight are refused with their number. -/
theorem ofRows_of_length_ne {rows : Drawing} (h : rows.length ≠ boardSize) :
    Board.ofRows rows = .error (.malformed (.rowCount rows.length)) :=
  Board.ofRows_eq_error_iff_firstDefect.2 ⟨_, .rowCount h, rfl⟩

/-- **A reader of a text hands out what the text reads as.**  If the first line of the text shows
something and there are at most eight lines, the reader hands out rows once and then no more for
ever, and these rows read as the text does: as the same board, or they are refused for the same
reason, which is their number if there are fewer than eight.  A text that reads as a board is
such a text. -/
theorem Reader.hands_out_text (hr : r.Steady) (hoctets : r.octets = Text.octets s) :
    (∀ first others, Text.lines s = first :: others → isBlankRow first = false →
      (Text.lines s).length ≤ boardSize →
      ∃ rows, (∀ extra, BoardSource.answers (extra + 1) r =
          .rows rows :: List.replicate extra .exhausted) ∧
        Board.ofRows rows = Board.ofText s ∧
        ((Text.lines s).length < boardSize →
          ∃ defect, Board.ofRows rows = .error (.malformed defect) ∧
            defect.message = "expected 8 rows, got " ++ (Text.lines s).length.repr)) ∧
    ∀ b, Board.ofText s = .ok b →
      ∃ rows, (∀ extra, BoardSource.answers (extra + 1) r =
          .rows rows :: List.replicate extra .exhausted) ∧
        Board.ofRows rows = .ok b := by
  constructor
  · intro first others hlines hfirst hlength
    refine ⟨Text.lines s, answers_of_one hr hoctets hlines hfirst hlength, rfl, fun hshort => ?_⟩
    exact ⟨_, ofRows_of_length_ne (Nat.ne_of_lt hshort), rfl⟩
  · intro b hb
    obtain ⟨hlength, first, others, hlines, hfirst⟩ := lines_of_ofText hb
    exact ⟨Text.lines s, answers_of_one hr hoctets hlines hfirst (Nat.le_of_eq hlength), hb⟩

/-- A text of a row with a wide letter, a row of returns and a row that is not ended is handed out
as one short block, and a board without a newline at its end as the board. -/
theorem Reader.hands_out_text_short :
    let short := "k\u00e9\n\r\r\nK"
    let whole := "\n".intercalate Drawing.twoKings
    let b := Board.ofCells Drawing.twoKings.cell
    (∃ rows, BoardSource.answers 3 (ofOctets (Text.octets short)) =
        [.rows rows, .exhausted, .exhausted] ∧
      Board.ofRows rows = Board.ofText short ∧
      ∃ defect, Board.ofRows rows = .error (.malformed defect) ∧
        defect.message = "expected 8 rows, got 3") ∧
    Board.ofText whole = .ok b ∧
    ∃ rows, BoardSource.answers 2 (ofOctets (Text.octets whole)) = [.rows rows, .exhausted] ∧
      Board.ofRows rows = .ok b := by
  intro short whole b
  have hlines : Text.lines short = ["k\u00e9", "", "K"] := by decide +kernel
  have hwhole : Board.ofText whole = .ok b := b.ofText_eq_ok_iff.2 (by decide +kernel)
  obtain ⟨hblock, -⟩ := hands_out_text (steady_ofOctets (Text.octets short)) (octets_ofOctets _)
  obtain ⟨-, hboard⟩ := hands_out_text (steady_ofOctets (Text.octets whole)) (octets_ofOctets _)
  obtain ⟨rows, hanswers, hread, hshort⟩ :=
    hblock _ _ hlines (by decide +kernel) (by rw [hlines]; decide)
  obtain ⟨defect, hdefect, hmessage⟩ := hshort (by rw [hlines]; decide)
  rw [hlines] at hmessage
  obtain ⟨wholeRows, hanswers', hread'⟩ := hboard b hwhole
  exact ⟨⟨rows, hanswers 2, hread, defect, hdefect, hmessage⟩, hwhole, wholeRows, hanswers' 1,
    hread'⟩

end KingCheck.Input
