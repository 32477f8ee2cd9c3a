import KingCheck.Proofs.Input.Framing

/-!
# What a reader begins with

A line is handed out when its newline is there, and a block when its eighth line is; what
a reader has behind it is not looked at, be it more lines or a failure.  So the lines that are
read before something else decide the first answers (`Reads.answers`): these are their whole
blocks, and what is left of the lines is short of one.
-/
namespace KingCheck.Input

open Text (Octets pieces pieces_append_sep)

/-- The blocks of some rows that have all their rows. -/
def wholeBlocks (rows : List String) : List Drawing :=
  (blocks rows).filter fun block => decide (block.length = boardSize)

theorem wholeBlocks_of_whole {rows : List String}
    (h : ∀ block ∈ blocks rows, block.length = boardSize) : wholeBlocks rows = blocks rows := by
  rw [wholeBlocks, List.filter_eq_self]
  intro block hblock
  exact decide_eq_true (h block hblock)

/-- A block is whole, or the last one. -/
theorem length_of_blocks_eq_cons {rows : List String} {block : Drawing} {others : List Drawing}
    (h : blocks rows = block :: others) :
    block.length = boardSize ∨ block.length < boardSize ∧ others = [] := by
  cases hdrop : rows.dropWhile isBlankRow with
  | nil => simp [blocks_of_dropWhile_eq_nil hdrop] at h
  | cons first behind =>
    rw [blocks_of_dropWhile_eq_cons hdrop] at h
    obtain ⟨rfl, rfl⟩ := List.cons.inj h
    rw [List.length_cons, List.length_take]
    by_cases hlength : boardSize - 1 ≤ behind.length
    · left
      rw [Nat.min_eq_left hlength]
      rfl
    · right
      refine ⟨by omega, ?_⟩
      rw [List.drop_of_length_le (by omega), blocks_nil]

namespace Reader

variable {r rest : Reader} {line : Octets} {lines : List Octets}

/-- A line ends at the first newline. -/
theorem line_unique {line' after after' : Octets} (hline : newline ∉ line)
    (hline' : newline ∉ line') (h : line ++ newline :: after = line' ++ newline :: after') :
    line = line' ∧ after = after' := by
  have hpieces := congrArg (pieces newline) h
  rw [pieces_append_sep newline hline, pieces_append_sep newline hline'] at hpieces
  obtain rfl : line = line' := (List.cons.inj hpieces).1
  exact ⟨rfl, (List.cons.inj (List.append_cancel_left h)).2⟩

/-- Of a line of which some octets are there, the rest is read up to its newline, and
nothing behind it. -/
theorem readLineFrom_of_line {begun after : Octets} {steady : Reader} (hsteady : steady.Steady)
    (hbegun : newline ∉ begun) (hline : newline ∉ line)
    (h : begun ++ steady.octets = line ++ newline :: after) (rest : Reader) :
    ∃ left : Reader, readLineFrom begun (steady ++ rest) = (.ok (some line), left ++ rest) ∧
      left.Steady ∧ left.octets = after := by
  induction steady generalizing begun with
  | nil =>
    refine absurd ?_ hbegun
    rw [octets, List.append_nil] at h
    simp [h]
  | cons delivery steady ih =>
    cases delivery with
    | failure text => exact absurd List.mem_cons_self (hsteady text)
    | interrupted => exact ih hsteady.tail hbegun h
    | chunk bytes =>
      rw [List.cons_append, readLineFrom]
      rw [octets, ← List.append_assoc] at h
      -- The line goes on behind this delivery, or it ends inside and some of it is left.
      cases hdrop : bytes.dropWhile (· != newline) with
      | nil =>
        have hboth : newline ∉ begun ++ bytes :=
          List.not_mem_append hbegun (newline_notMem_of_dropWhile hdrop)
        exact ih hsteady.tail hboth h
      | cons octet tail =>
        obtain ⟨hfirst, hbytes⟩ := eq_line_append_of_dropWhile hdrop
        generalize bytes.takeWhile (· != newline) = first at hfirst hbytes
        have hboth : newline ∉ begun ++ first := List.not_mem_append hbegun hfirst
        rw [hbytes, List.append_assoc, List.append_assoc, List.cons_append,
          ← List.append_assoc] at h
        obtain ⟨rfl, rfl⟩ := line_unique hboth hline h
        exact ⟨.chunk tail :: steady, rfl, hsteady.tail.chunk, rfl⟩

/-- Some lines are read one after another, and the rest of the reader is left. -/
inductive Reads : List Octets → Reader → Reader → Prop where
  | nil (r : Reader) : Reads [] r r
  | cons {line : Octets} {lines : List Octets} {r mid rest : Reader}
      (hread : r.readLine = (.ok (some line), mid)) (hlines : Reads lines mid rest) :
      Reads (line :: lines) r rest

/-- Lines that are delivered with their newlines are read, whatever comes behind. -/
theorem exists_reads {steady : Reader} (hsteady : steady.Steady)
    (hlines : ∀ line ∈ lines, newline ∉ line) {more : Octets}
    (h : steady.octets = lines.flatMap (· ++ [newline]) ++ more) (rest : Reader) :
    ∃ left : Reader, Reads lines (steady ++ rest) (left ++ rest) ∧ left.Steady ∧
      left.octets = more := by
  induction lines generalizing steady with
  | nil => exact ⟨steady, .nil _, hsteady, h⟩
  | cons line lines ih =>
    have hline : newline ∉ line := hlines line List.mem_cons_self
    have hcut : [] ++ steady.octets =
        line ++ newline :: (lines.flatMap (· ++ [newline]) ++ more) := by
      rw [h, List.flatMap_cons]
      simp only [List.nil_append, List.append_assoc, List.cons_append]
    obtain ⟨mid, hread, hmid, hoctets⟩ :=
      readLineFrom_of_line hsteady List.not_mem_nil hline hcut rest
    obtain ⟨left, hothers, hleft⟩ :=
      ih hmid (fun l hl => hlines l (List.mem_cons_of_mem _ hl)) hoctets
    exact ⟨left, .cons hread hothers, hleft⟩

/-- What filling a block makes of the next line. -/
theorem fillBlock_of_line {taken : List String} {rest : Reader}
    (hread : r.readLine = (.ok (some line), rest)) (hlen : taken.length < boardSize) :
    fillBlock taken r =
      if taken = [] ∧ isBlankRow (rowOf line) = true then fillBlock [] rest
      else fillBlock (taken ++ [rowOf line]) rest := by
  rw [fillBlock, if_neg (Nat.not_le.2 hlen)]
  split <;> simp_all

namespace Reads

/-- A block that is begun takes as many lines as it lacks. -/
theorem fillBlock {taken : List String} (h : Reads lines r rest) (htaken : taken ≠ [])
    (hlen : taken.length ≤ boardSize) (henough : boardSize ≤ taken.length + lines.length) :
    ∃ mid, Reader.fillBlock taken r =
        (.rows (taken ++ (lines.map rowOf).take (boardSize - taken.length)), mid) ∧
      Reads (lines.drop (boardSize - taken.length)) mid rest := by
  generalize hlack : boardSize - taken.length = lack
  induction lack generalizing taken r lines with
  | zero =>
    have hfull : boardSize ≤ taken.length := by omega
    rw [Reader.fillBlock, if_pos hfull, List.take_zero, List.append_nil]
    exact ⟨r, rfl, h⟩
  | succ lack ih =>
    cases h with
    | nil =>
      rw [List.length_nil] at henough
      omega
    | @cons line lines _ mid _ hread hlines =>
      have hone : (taken ++ [rowOf line]).length = taken.length + 1 := by simp
      rw [List.length_cons] at henough
      obtain ⟨left, hfill, hleft⟩ :=
        ih hlines (List.concat_ne_nil (rowOf line) taken) (by omega) (by omega) (by omega)
      rw [List.append_assoc, List.singleton_append] at hfill
      rw [fillBlock_of_line hread (by omega), if_neg fun hnil => htaken hnil.1, hfill]
      exact ⟨left, rfl, hleft⟩

/-- The first block of the lines is handed out if it is whole, and the lines behind it come
next. -/
theorem nextBlock (h : Reads lines r rest) {block : Drawing} {others : List Drawing}
    (hblocks : blocks (lines.map rowOf) = block :: others) (hwhole : block.length = boardSize) :
    ∃ mid after, r.nextBlock = (.rows block, mid) ∧ Reads after mid rest ∧
      blocks (after.map rowOf) = others := by
  induction h with
  | nil => simp at hblocks
  | @cons line lines _ mid _ hread hlines ih =>
    rw [Reader.nextBlock, fillBlock_of_line hread (by decide)]
    rw [List.map_cons] at hblocks
    cases hblank : isBlankRow (rowOf line) with
    | true =>
      rw [blocks_cons_of_blank hblank] at hblocks
      rw [if_pos (by simp)]
      exact ih hblocks
    | false =>
      rw [blocks_cons_of_shown hblank] at hblocks
      obtain ⟨rfl, rfl⟩ := List.cons.inj hblocks
      have henough : boardSize ≤ 1 + lines.length := by
        rw [List.length_cons, List.length_take, List.length_map] at hwhole
        omega
      obtain ⟨left, hfill, hleft⟩ :=
        hlines.fillBlock (List.cons_ne_nil (rowOf line) []) (by simp [boardSize]) henough
      rw [if_neg (by simp), List.nil_append, hfill]
      exact ⟨left, _, rfl, hleft, by rw [List.map_drop]; rfl⟩

/-- **The lines that are read first decide the first answers.**  These are the whole blocks of
the lines, and behind them the reader goes on with lines that are too few for another. -/
theorem answers (h : Reads lines r rest) :
    ∃ mid after, Reads after mid rest ∧ wholeBlocks (after.map rowOf) = [] ∧ ∀ extra,
      BoardSource.answers ((wholeBlocks (lines.map rowOf)).length + extra) r =
        (wholeBlocks (lines.map rowOf)).map .rows ++ BoardSource.answers extra mid := by
  generalize hblocks : blocks (lines.map rowOf) = drawings
  induction drawings generalizing r lines with
  | nil =>
    have hnone : wholeBlocks (lines.map rowOf) = [] := by rw [wholeBlocks, hblocks]; rfl
    refine ⟨r, lines, h, hnone, fun extra => ?_⟩
    rw [hnone, List.length_nil, Nat.zero_add, List.map_nil, List.nil_append]
  | cons block others ih =>
    rcases length_of_blocks_eq_cons hblocks with hwhole | ⟨hshort, rfl⟩
    · obtain ⟨next, left, hnext, hleft, hothers⟩ := h.nextBlock hblocks hwhole
      obtain ⟨mid, after, hafter, hnone, hanswers⟩ := ih hleft hothers
      refine ⟨mid, after, hafter, hnone, fun extra => ?_⟩
      have hfirst : Supply.next r = (.rows block, next) := hnext
      have hcons : wholeBlocks (lines.map rowOf) = block :: wholeBlocks (left.map rowOf) := by
        rw [wholeBlocks, wholeBlocks, hblocks, hothers, List.filter_cons,
          if_pos (decide_eq_true hwhole)]
      rw [hcons, List.length_cons, Nat.add_right_comm, BoardSource.answers, hfirst, List.map_cons,
        List.cons_append, hanswers extra]
    · have hnone : wholeBlocks (lines.map rowOf) = [] := by
        rw [wholeBlocks, hblocks]
        simp [Nat.ne_of_lt hshort]
      refine ⟨r, lines, h, hnone, fun extra => ?_⟩
      rw [hnone, List.length_nil, Nat.zero_add, List.map_nil, List.nil_append]

end Reads

/-- The reader delivers some lines, each with its newline, before a read fails. -/
structure Begins (lines : List Octets) (r : Reader) : Prop where
  newline_notMem : ∀ line ∈ lines, newline ∉ line
  delivered : ∃ steady rest : Reader, r = steady ++ rest ∧ steady.Steady ∧
    lines.flatMap (· ++ [newline]) <+: steady.octets

/-- **The lines that a reader begins with decide its first answers,** if their blocks are
whole. -/
theorem Begins.answers (h : r.Begins lines)
    (hwhole : ∀ block ∈ blocks (lines.map rowOf), block.length = boardSize) :
    BoardSource.answers (blocks (lines.map rowOf)).length r =
      (blocks (lines.map rowOf)).map .rows := by
  obtain ⟨hlines, steady, rest, rfl, hsteady, more, hmore⟩ := h
  obtain ⟨left, hreads, -⟩ := exists_reads hsteady hlines hmore.symm rest
  obtain ⟨mid, -, -, -, hanswers⟩ := hreads.answers
  have := hanswers 0
  rwa [wholeBlocks_of_whole hwhole, BoardSource.answers, List.append_nil] at this

end Reader

end KingCheck.Input
