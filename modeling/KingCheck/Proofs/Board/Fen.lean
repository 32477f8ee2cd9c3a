import KingCheck.Board.Fen
import KingCheck.Proofs.Board.RoundTrip
import KingCheck.Proofs.Text.Returns
import Mathlib.Data.List.Chain
import Mathlib.Data.List.Nodup

/-!
# The compact form tells the board

The compact form writes a row as a field: a letter for each piece, and a digit for each gap in
front of one or at the end.  Spelled out, with dots in place of digits, the field is the row of the
drawing (`spells_fenField`).  Gaps that touch are one gap, so no two digits are adjacent, and with
that a row has one field only (`Spells.field_unique`).  So the compact form of a board is the only
text that stands for its drawing, and a board is told by it (`fen_canonical`).
-/
namespace KingCheck

namespace Fen

/-- The digits that stand for gaps. -/
def digits : List Char := ['1', '2', '3', '4', '5', '6', '7', '8']

/-- The letters that stand for pieces. -/
def pieceLetters : List Char := ['p', 'n', 'b', 'r', 'q', 'k', 'P', 'N', 'B', 'R', 'Q', 'K']

/-- What a character of a field stands for in the drawing: a digit for so many dots, and a letter
for itself. -/
def spell (c : Char) : List Char :=
  if c ∈ digits then List.replicate (c.toNat - '0'.toNat) '.' else [c]

/-- A field stands for a row of a drawing: it is made of digits and of letters of pieces, no two
digits are adjacent, and with dots in place of the digits it is the row. -/
structure Spells (field row : List Char) : Prop where
  sound : ∀ c ∈ field, c ∈ digits ∨ c ∈ pieceLetters
  apart : field.IsChain fun c next => ¬ (c ∈ digits ∧ next ∈ digits)
  spelled : field.flatMap spell = row

variable {c c' : Char} {field field' row : List Char}

theorem notMem_digits (h : c ∈ pieceLetters) : c ∉ digits := by
  have hall : pieceLetters.all (· ∉ digits) = true := by decide
  simpa using List.all_eq_true.1 hall c h

theorem spell_of_notMem (h : c ∉ digits) : spell c = [c] := if_neg h

/-- The digits stand for the gaps that fit a row, in order. -/
theorem map_spell_digits :
    digits.map spell = (List.range boardSize).map fun n => List.replicate (n + 1) '.' := by decide

/-- A digit stands for some dots. -/
theorem exists_spell_digit (h : c ∈ digits) : ∃ gap, spell c = List.replicate (gap + 1) '.' := by
  have hmem := List.mem_map_of_mem (f := spell) h
  rw [map_spell_digits, List.mem_map] at hmem
  obtain ⟨gap, -, hgap⟩ := hmem
  exact ⟨gap, hgap.symm⟩

/-- No two digits stand for the same dots. -/
theorem digit_unique (h : c ∈ digits) (h' : c' ∈ digits) (heq : spell c = spell c') : c = c' := by
  have hnodup : (digits.map spell).Nodup := by decide
  exact List.inj_on_of_nodup_map hnodup h h' heq

/-- A gap in a row has its digit, and no gap has none. -/
theorem gapDigits_cases {gap : Nat} (h : gap ≤ boardSize) :
    gapDigits gap = [] ∧ gap = 0 ∨
      ∃ d ∈ digits, gapDigits gap = [d] ∧ spell d = List.replicate gap '.' := by
  have hall : ∀ gap < boardSize + 1, gapDigits gap = [] ∧ gap = 0 ∨
      digits.any (fun d => gapDigits gap = [d] ∧ spell d = List.replicate gap '.') = true := by
    decide
  simpa using hall gap (Nat.lt_succ_of_le h)

theorem toChar_mem_pieceLetters {cell : Cell} (h : cell.isEmpty = false) :
    cell.toChar ∈ pieceLetters := by
  rcases cell with ⟨kind, side⟩
  revert h
  cases kind <;> cases side <;> decide

namespace Spells

theorem nil : Spells [] [] := ⟨by simp, .nil, rfl⟩

/-- A letter may stand in front. -/
theorem letter (hc : c ∈ pieceLetters) (h : Spells field row) : Spells (c :: field) (c :: row) where
  sound := List.forall_mem_cons.2 ⟨.inr hc, h.sound⟩
  apart := h.apart.cons fun _ _ hboth => notMem_digits hc hboth.1
  spelled := by
    rw [List.flatMap_cons, spell_of_notMem (notMem_digits hc), h.spelled, List.singleton_append]

/-- A gap may stand in front of anything but a digit. -/
theorem gap {n : Nat} (hn : n ≤ boardSize) (hfirst : ∀ d ∈ field.head?, d ∉ digits)
    (h : Spells field row) : Spells (gapDigits n ++ field) (List.replicate n '.' ++ row) := by
  rcases gapDigits_cases hn with ⟨hnone, rfl⟩ | ⟨d, hd, hone, hspell⟩
  · rwa [hnone]
  · rw [hone]
    constructor
    · exact List.forall_mem_cons.2 ⟨.inl hd, h.sound⟩
    · exact h.apart.cons fun next hnext hboth => hfirst next hnext hboth.2
    · rw [List.singleton_append, List.flatMap_cons, h.spelled, hspell]

/-- What holds of a field holds behind its first character. -/
theorem tail (h : Spells (c :: field) row) : Spells field (field.flatMap spell) :=
  ⟨fun d hd => h.sound d (List.mem_cons_of_mem c hd), h.apart.tail, rfl⟩

/-- No character stands for nothing. -/
theorem spell_ne_nil (h : Spells field row) (hc : c ∈ field) : spell c ≠ [] := by
  rcases h.sound c hc with hdigit | hletter
  · obtain ⟨gap, hgap⟩ := exists_spell_digit hdigit
    simp [hgap]
  · simp [spell_of_notMem (notMem_digits hletter)]

theorem eq_nil (h : Spells field []) : field = [] := by
  rw [List.eq_nil_iff_forall_not_mem]
  intro c hc
  exact h.spell_ne_nil hc (List.flatMap_eq_nil_iff.1 h.spelled c hc)

/-- A row does not begin with a dot if its field does not begin with a digit. -/
theorem takeWhile_letter (h : Spells (c :: field) row) (hc : c ∉ digits) :
    row.takeWhile (· == '.') = [] := by
  have hletter : c ∈ pieceLetters := (h.sound c List.mem_cons_self).resolve_left hc
  have hdot : c ≠ '.' := by
    rintro rfl
    exact absurd hletter (by decide)
  rw [← h.spelled, List.flatMap_cons, spell_of_notMem hc, List.singleton_append]
  exact List.takeWhile_cons_of_neg (by simpa using hdot)

/-- The dots that a row begins with are those of the digit that its field begins with, since no
other digit is next to it. -/
theorem takeWhile_digit (h : Spells (c :: field) row) (hc : c ∈ digits) :
    row.takeWhile (· == '.') = spell c := by
  have hrest : (field.flatMap spell).takeWhile (· == '.') = [] := by
    cases field with
    | nil => rfl
    | cons d field =>
      have hd : d ∉ digits := fun hd => h.apart.rel_head? (by simp) ⟨hc, hd⟩
      exact h.tail.takeWhile_letter hd
  have hdots : ∀ d ∈ spell c, (d == '.') = true := by
    intro d hd
    obtain ⟨gap, hgap⟩ := exists_spell_digit hc
    rw [hgap] at hd
    simpa using List.eq_of_mem_replicate hd
  rw [← h.spelled, List.flatMap_cons, List.takeWhile_append_of_pos hdots, hrest, List.append_nil]

/-- The row decides the first character of its field. -/
theorem first_unique (h : Spells (c :: field) row) (h' : Spells (c' :: field') row) : c = c' := by
  by_cases hc : c ∈ digits <;> by_cases hc' : c' ∈ digits
  · exact digit_unique hc hc' ((h.takeWhile_digit hc).symm.trans (h'.takeWhile_digit hc'))
  · have hnil : spell c = [] := (h.takeWhile_digit hc).symm.trans (h'.takeWhile_letter hc')
    exact absurd hnil (h.spell_ne_nil List.mem_cons_self)
  · have hnil : spell c' = [] := (h'.takeWhile_digit hc').symm.trans (h.takeWhile_letter hc)
    exact absurd hnil (h'.spell_ne_nil List.mem_cons_self)
  · have hrow := h.spelled.trans h'.spelled.symm
    rw [List.flatMap_cons, List.flatMap_cons, spell_of_notMem hc, spell_of_notMem hc'] at hrow
    exact (List.cons.inj hrow).1

/-- **A row has one field only.** -/
theorem field_unique (h : Spells field row) (h' : Spells field' row) : field = field' := by
  induction field generalizing field' row with
  | nil =>
    obtain rfl : [] = row := h.spelled
    exact h'.eq_nil.symm
  | cons c field ih =>
    cases field' with
    | nil =>
      obtain rfl : [] = row := h'.spelled
      exact h.eq_nil
    | cons c' field' =>
      obtain rfl := h.first_unique h'
      have hrow := h.spelled.trans h'.spelled.symm
      rw [List.flatMap_cons, List.flatMap_cons, List.append_cancel_left_eq] at hrow
      rw [ih h.tail (hrow ▸ h'.tail)]

/-- A field is no longer than its row. -/
theorem length_le (h : Spells field row) : field.length ≤ row.length := by
  induction field generalizing row with
  | nil => simp
  | cons c field ih =>
    have hpos := List.length_pos_iff.2 (h.spell_ne_nil List.mem_cons_self)
    have hrest := ih h.tail
    rw [← h.spelled, List.flatMap_cons, List.length_append, List.length_cons]
    omega

/-- No field holds a slash. -/
theorem slash_notMem (h : Spells field row) : '/' ∉ field := by
  intro hmem
  have hnone : '/' ∉ digits ∧ '/' ∉ pieceLetters := by decide
  rcases h.sound '/' hmem with hdigit | hletter
  · exact hnone.1 hdigit
  · exact hnone.2 hletter

end Spells

/-- **The field of some cells stands for their row,** with the gap that was begun before them. -/
theorem spells_fenField {gap : Nat} {cells : List Cell} (h : gap + cells.length ≤ boardSize) :
    Spells (fenField gap cells) (List.replicate gap '.' ++ cells.map Cell.toChar) := by
  induction cells generalizing gap with
  | nil => simpa [fenField] using Spells.nil.gap h (by simp)
  | cons cell cells ih =>
    rw [List.length_cons] at h
    rw [fenField, List.map_cons]
    cases hempty : cell.isEmpty with
    | true =>
      -- The gap goes on.
      have hdot : cell.toChar = '.' := by simp [Cell.toChar, Cell.occupant, hempty]
      have hmore : Spells (fenField (gap + 1) cells)
          (List.replicate (gap + 1) '.' ++ cells.map Cell.toChar) := ih (by omega)
      rw [List.replicate_succ', List.append_assoc, List.singleton_append] at hmore
      rwa [if_pos rfl, hdot]
    | false =>
      have hletter := toChar_mem_pieceLetters hempty
      have hrest : Spells (fenField 0 cells) (cells.map Cell.toChar) := ih (by omega)
      rw [if_neg (by decide)]
      refine (hrest.letter hletter).gap (by omega) ?_
      simpa using notMem_digits hletter

/-- Parts of `n` members at most add up to `n` for each at most. -/
theorem length_flatMap_le {α β : Type} {l : List α} {f : α → List β} {n : Nat}
    (h : ∀ a ∈ l, (f a).length ≤ n) : (l.flatMap f).length ≤ l.length * n := by
  induction l with
  | nil => simp
  | cons a l ih =>
    have hfirst := h a List.mem_cons_self
    have hrest := ih fun a' ha' => h a' (List.mem_cons_of_mem a ha')
    rw [List.flatMap_cons, List.length_append, List.length_cons, Nat.succ_mul]
    omega

end Fen

namespace Board

open Fen (Spells)

variable (b : Board)

/-- The lines of the drawing, from newline to newline, are the rows. -/
theorem splitOn_text : b.text.toList.splitOn '\n' = (List.finRange boardSize).map b.letters := by
  rw [toList_text]
  refine List.splitOn_intercalate '\n' ?_ (by simp [boardSize])
  intro line hline
  obtain ⟨row, -, rfl⟩ := List.mem_map.1 hline
  exact b.notMem_letters row (by decide)

/-- Boards with the same rows are the same. -/
theorem eq_of_letters_eq {a : Board}
    (h : (List.finRange boardSize).map a.letters = (List.finRange boardSize).map b.letters) :
    a = b := by
  have hrows : a.rows = b.rows := by
    rw [rows, rows, ← Function.comp_def, ← Function.comp_def, ← List.map_map, ← List.map_map, h]
  have hread := a.ofRows_rows
  rw [hrows, ofRows_rows] at hread
  exact (Except.ok.inj hread).symm

/-- The fields of the compact form. -/
def fenFields : List (List Char) := b.grid.toList.map fun cells => fenField 0 cells.toList

@[simp] theorem length_fenFields : b.fenFields.length = boardSize := by
  simp [fenFields]

theorem toList_fen : b.fen.toList = ['/'].intercalate b.fenFields := by
  have hfields : (b.grid.toList.map fun cells => String.ofList (fenField 0 cells.toList)).map
      String.toList = b.fenFields := by
    rw [fenFields, List.map_map]
    exact List.map_congr_left fun cells _ => String.toList_ofList
  rw [fen, String.toList_intercalate, hfields]
  rfl

/-- Each field stands for its row. -/
theorem forall₂_spells_fenFields :
    List.Forall₂ Spells b.fenFields ((List.finRange boardSize).map b.letters) := by
  have hrows : (List.finRange boardSize).map b.letters =
      b.grid.toList.map fun cells => cells.toList.map Cell.toChar := by
    refine List.ext_getElem (by simp) fun row hrow hrow' => ?_
    simp [letters]
  rw [hrows, fenFields, List.forall₂_map_left_iff, List.forall₂_map_right_iff, List.forall₂_same]
  intro cells _
  exact Fen.spells_fenField (by simp)

/-- A field stands for the eight letters of a row. -/
theorem exists_spells_of_mem {field : List Char} (h : field ∈ b.fenFields) :
    ∃ row, Spells field row ∧ row.length = boardSize := by
  obtain ⟨cells, -, rfl⟩ := List.mem_map.1 h
  exact ⟨cells.toList.map Cell.toChar, Fen.spells_fenField (by simp), by simp⟩

/-- The fields are what stands between the slashes. -/
theorem splitOn_fen : b.fen.toList.splitOn '/' = b.fenFields := by
  rw [toList_fen]
  refine List.splitOn_intercalate '/' ?_ (List.ne_nil_of_length_pos (by simp [boardSize]))
  intro field hfield
  obtain ⟨row, hspells, -⟩ := b.exists_spells_of_mem hfield
  exact hspells.slash_notMem

/-- Eight fields of eight characters at most, and seven slashes between them. -/
theorem length_fen_le : b.fen.length ≤ 71 := by
  have hfields : b.fenFields ≠ [] := List.ne_nil_of_length_pos (by simp [boardSize])
  have hended : b.fenFields.flatMap (· ++ ['/']) = b.fen.toList ++ ['/'] := by
    rw [Text.flatMap_eq_intercalate hfields, toList_fen]
  have hle : (b.fenFields.flatMap (· ++ ['/'])).length ≤ b.fenFields.length * (boardSize + 1) := by
    apply Fen.length_flatMap_le
    intro field hfield
    obtain ⟨row, hspells, hrow⟩ := b.exists_spells_of_mem hfield
    rw [List.length_append, List.length_singleton, ← hrow]
    exact Nat.succ_le_succ hspells.length_le
  rw [hended, List.length_append, String.length_toList, List.length_singleton,
    length_fenFields] at hle
  exact Nat.le_of_succ_le_succ hle

/-- **The compact form of a board is canonical and loses nothing.**  A text is the compact form of
a board exactly if eight fields stand between its slashes, each made of letters of pieces and of
digits that are not adjacent, and with dots in place of the digits these are the lines of the
board's drawing.  So boards with the same compact form are the same.  It has 71 characters at
most. -/
theorem fen_canonical :
    (∀ (b : Board) (s : String), b.fen = s ↔
      (s.toList.splitOn '/').length = boardSize ∧
        List.Forall₂ Spells (s.toList.splitOn '/') (b.text.toList.splitOn '\n')) ∧
    (∀ a b : Board, a.fen = b.fen ↔ a = b) ∧
    ∀ b : Board, b.fen.length ≤ 71 := by
  have hspells : ∀ b : Board,
      List.Forall₂ Spells (b.fen.toList.splitOn '/') (b.text.toList.splitOn '\n') := by
    intro b
    rw [splitOn_fen, splitOn_text]
    exact b.forall₂_spells_fenFields
  refine ⟨fun b s => ⟨?_, ?_⟩, fun a b => ⟨?_, congrArg fen⟩, length_fen_le⟩
  · rintro rfl
    exact ⟨by rw [splitOn_fen, length_fenFields], hspells b⟩
  · rintro ⟨-, hs⟩
    have hunique : Relator.LeftUnique Spells := fun _ _ _ h h' => h.field_unique h'
    have hjoined := congrArg ['/'].intercalate (hunique.forall₂ (hspells b) hs)
    rwa [List.intercalate_splitOn, List.intercalate_splitOn, String.toList_inj] at hjoined
  · intro h
    have hunique : Relator.RightUnique Spells := fun _ _ _ h h' => h.spelled.symm.trans h'.spelled
    have hlines := hunique.forall₂ (hspells a) (h ▸ hspells b)
    rw [splitOn_text, splitOn_text] at hlines
    exact eq_of_letters_eq b hlines

example : (ofCells <| Drawing.cell ["k.......", "........", "........", "...q....", "........",
    "........", "......P.", ".......K"]).fen = "k7/8/8/3q4/8/8/6P1/7K" := by
  decide +kernel

example : (ofCells fun _ => ⟨.queen, .white⟩).fen.length = 71 := by decide +kernel

end Board
end KingCheck
