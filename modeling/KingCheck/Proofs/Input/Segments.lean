import KingCheck.Proofs.Board.RoundTrip
import KingCheck.Proofs.Input.Framing

/-!
# Rows between blocks and rows in blocks

A row that shows nothing is passed over between blocks and kept inside one, so that what
becomes of a row depends on all rows before it.  `Framed` says it of all rows at once: they
are cut, in order and without loss, into rows that are skipped and blocks.  Rows can be framed
in one way only (`Framed.unique`), since a block takes eight rows or all that are left, and the
blocks of that way are the ones that a reader hands out.
-/
namespace KingCheck.Input

open Text (Cut cut_iff pieces)

/-- A part of some rows: one that is skipped, or those of a block. -/
inductive Segment where
  | skipped (row : String)
  | block (rows : Drawing)
deriving DecidableEq

namespace Segment

/-- The rows of a segment. -/
def rows : Segment → List String
  | skipped row => [row]
  | block rows => rows

/-- What a segment hands out. -/
def drawing? : Segment → Option Drawing
  | skipped _ => none
  | block rows => some rows

/-- The segment that some rows begin with. -/
def first (row : String) (others : List String) : Segment :=
  if isBlankRow row then skipped row else block ((row :: others).take boardSize)

end Segment

/-- Rows are cut into segments, in order and without loss: a skipped row shows nothing, the
first row of a block shows something, and a block has eight rows, but that the last may have
fewer, if no row comes after it. -/
structure Framed (rows : List String) (segments : List Segment) : Prop where
  rows_eq : segments.flatMap Segment.rows = rows
  skipped_blank : ∀ row, .skipped row ∈ segments → isBlankRow row = true
  block_begins : ∀ block, .block block ∈ segments →
    ∃ first others, block = first :: others ∧ isBlankRow first = false
  block_length : ∀ before block after, segments = before ++ .block block :: after →
    block.length = boardSize ∨ block.length < boardSize ∧ after = []

namespace Framed

variable {rows : List String} {row : String} {block : Drawing} {segments other : List Segment}

theorem nil : Framed [] [] := by
  constructor <;> simp

/-- What holds of all segments holds without the first. -/
theorem tail {segment : Segment} (h : Framed rows (segment :: segments)) :
    Framed (rows.drop segment.rows.length) segments where
  rows_eq := by rw [← h.rows_eq, List.flatMap_cons, List.drop_left]
  skipped_blank := fun row hrow => h.skipped_blank row (List.mem_cons_of_mem _ hrow)
  block_begins := fun block hblock => h.block_begins block (List.mem_cons_of_mem _ hblock)
  block_length := by
    intro before block after heq
    exact h.block_length (segment :: before) block after (congrArg (List.cons segment) heq)

/-- The first row decides the first segment, which takes eight rows or all that there are, if
it is a block. -/
theorem eq_first {segment : Segment} (h : Framed rows (segment :: segments)) :
    ∃ row others, rows = row :: others ∧ segment = Segment.first row others := by
  cases segment with
  | skipped row =>
    refine ⟨row, segments.flatMap Segment.rows, h.rows_eq.symm, ?_⟩
    rw [Segment.first, if_pos (h.skipped_blank row List.mem_cons_self)]
  | block block =>
    obtain ⟨first, others, rfl, hfirst⟩ := h.block_begins block List.mem_cons_self
    have hrows : rows = first :: others ++ segments.flatMap Segment.rows := h.rows_eq.symm
    refine ⟨first, others ++ segments.flatMap Segment.rows, hrows, ?_⟩
    rw [Segment.first, hfirst, if_neg (by decide), ← List.cons_append]
    congr 1
    rcases h.block_length [] _ segments rfl with hwhole | ⟨hshort, hlast⟩
    · rw [List.take_left' hwhole]
    · rw [hlast, List.flatMap_nil, List.append_nil, List.take_of_length_le (Nat.le_of_lt hshort)]

/-- A row that shows nothing may be skipped in front. -/
theorem skip (hrow : isBlankRow row = true) (h : Framed rows segments) :
    Framed (row :: rows) (.skipped row :: segments) where
  rows_eq := by rw [List.flatMap_cons, h.rows_eq]; rfl
  skipped_blank := by
    intro r hr
    rcases List.mem_cons.1 hr with heq | hrest
    · rw [Segment.skipped.inj heq]
      exact hrow
    · exact h.skipped_blank r hrest
  block_begins := by
    intro b hb
    exact h.block_begins b ((List.mem_cons.1 hb).resolve_left (by simp))
  block_length := by
    intro before b after heq
    cases before with
    | nil => simp at heq
    | cons segment before => exact h.block_length before b after (List.cons.inj heq).2

/-- A block may stand in front, which is whole or has nothing after it. -/
theorem cons_block {first : String} {others : List String} (hfirst : isBlankRow first = false)
    (hlength : (first :: others).length = boardSize ∨
      (first :: others).length < boardSize ∧ segments = [])
    (h : Framed rows segments) :
    Framed (first :: others ++ rows) (.block (first :: others) :: segments) where
  rows_eq := by rw [List.flatMap_cons, h.rows_eq]; rfl
  skipped_blank := by
    intro r hr
    exact h.skipped_blank r ((List.mem_cons.1 hr).resolve_left (by simp))
  block_begins := by
    intro b hb
    rcases List.mem_cons.1 hb with heq | hrest
    · exact ⟨first, others, Segment.block.inj heq, hfirst⟩
    · exact h.block_begins b hrest
  block_length := by
    intro before b after heq
    cases before with
    | nil =>
      obtain ⟨hblock, rfl⟩ := List.cons.inj heq
      rw [← Segment.block.inj hblock]
      exact hlength
    | cons segment before => exact h.block_length before b after (List.cons.inj heq).2

/-- **Rows can be framed in one way only.** -/
theorem unique (h : Framed rows segments) (h' : Framed rows other) : segments = other := by
  induction segments generalizing rows other with
  | nil =>
    obtain rfl : [] = rows := h.rows_eq
    cases other with
    | nil => rfl
    | cons segment other =>
      obtain ⟨row, others, hrows, -⟩ := h'.eq_first
      exact absurd hrows (by simp)
  | cons segment segments ih =>
    obtain ⟨row, others, rfl, rfl⟩ := h.eq_first
    cases other with
    | nil => exact absurd h'.rows_eq (by simp)
    | cons segment other =>
      obtain ⟨row', others', heq, rfl⟩ := h'.eq_first
      obtain ⟨rfl, rfl⟩ := List.cons.inj heq
      rw [ih h.tail h'.tail]

/-- Rows that show nothing may all be skipped in front. -/
theorem skip_all {blanks : List String} (hblanks : ∀ row ∈ blanks, isBlankRow row = true)
    (h : Framed rows segments) :
    Framed (blanks ++ rows) (blanks.map Segment.skipped ++ segments) := by
  induction blanks with
  | nil => exact h
  | cons row blanks ih =>
    apply skip (hblanks row List.mem_cons_self)
    exact ih fun r hr => hblanks r (List.mem_cons_of_mem row hr)

end Framed

/-- Skipped rows hand out nothing. -/
theorem filterMap_drawing?_skipped (blanks : List String) :
    (blanks.map Segment.skipped).filterMap Segment.drawing? = [] := by
  rw [List.filterMap_map, List.filterMap_eq_nil_iff]
  intro row _
  rfl

/-- Any rows can be framed, and the drawings are their blocks. -/
theorem exists_framed (rows : List String) :
    ∃ segments, Framed rows segments ∧ segments.filterMap Segment.drawing? = blocks rows := by
  induction rows using blocks.induct with
  | case1 rows hdrop =>
    have hblank := List.dropWhile_eq_nil_iff.1 hdrop
    refine ⟨rows.map .skipped, ?_, ?_⟩
    · simpa using Framed.nil.skip_all hblank
    · rw [filterMap_drawing?_skipped, blocks_of_dropWhile_eq_nil hdrop]
  | case2 rows first others hdrop _ ih =>
    obtain ⟨segments, hframed, hdrawings⟩ := ih
    have hfirst : isBlankRow first = false := by
      have := List.head?_dropWhile_not isBlankRow rows
      simpa [hdrop] using this
    have hblank : ∀ row ∈ rows.takeWhile isBlankRow, isBlankRow row = true :=
      fun row hrow => List.mem_takeWhile_imp hrow
    have hrows : rows = rows.takeWhile isBlankRow ++
        (first :: others.take (boardSize - 1) ++ others.drop (boardSize - 1)) := by
      rw [List.cons_append, List.take_append_drop, ← hdrop, List.takeWhile_append_dropWhile]
    -- Where fewer than seven rows follow the first, none is left and no segment either.
    have hlength : (first :: others.take (boardSize - 1)).length = boardSize ∨
        (first :: others.take (boardSize - 1)).length < boardSize ∧ segments = [] := by
      rw [List.length_cons, List.length_take]
      by_cases henough : boardSize - 1 ≤ others.length
      · left
        rw [Nat.min_eq_left henough]
        rfl
      · right
        have hshort : others.length < boardSize - 1 := Nat.not_le.1 henough
        rw [Nat.min_eq_right (Nat.le_of_lt hshort)]
        refine ⟨Nat.add_lt_of_lt_sub hshort, ?_⟩
        rw [List.drop_of_length_le (Nat.le_of_lt hshort)] at hframed
        exact hframed.unique Framed.nil
    have hall := (Framed.cons_block hfirst hlength hframed).skip_all hblank
    rw [← hrows] at hall
    refine ⟨_, hall, ?_⟩
    rw [List.filterMap_append, filterMap_drawing?_skipped, List.nil_append, List.filterMap_cons,
      hdrawings, blocks_of_dropWhile_eq_cons hdrop]
    rfl

/-- **Framing loses no row and hands out none twice.**  The octets of a reader whose reads do
not fail are made up of lines in one way only, and the rows on these lines are cut into
skipped rows and blocks in one way only; the reader hands out the blocks of that way, in
order, and then no more for ever. -/
theorem Reader.answers_eq_framed {r : Reader} (hr : r.Steady) :
    ∃ lines segments, Cut newline r.octets lines ∧ Framed (lines.map rowOf) segments ∧
      (∀ lines' segments', Cut newline r.octets lines' → Framed (lines'.map rowOf) segments' →
        lines' = lines ∧ segments' = segments) ∧
      ∀ extra, BoardSource.answers ((segments.filterMap Segment.drawing?).length + extra) r =
        (segments.filterMap Segment.drawing?).map .rows ++ List.replicate extra .exhausted := by
  obtain ⟨segments, hframed, hdrawings⟩ := exists_framed r.rows
  refine ⟨pieces newline r.octets, segments, cut_iff.2 rfl, hframed, ?_, ?_⟩
  · intro lines' segments' hcut hframed'
    obtain rfl := cut_iff.1 hcut
    exact ⟨rfl, hframed'.unique hframed⟩
  · intro extra
    rw [hdrawings]
    exact answers_of_steady hr extra

/-- A blank line before a block, one in it and one behind it, and a row that is left: the
reader is interrupted in the middle, and the last line has no newline. -/
theorem Reader.answers_eq_framed_blankInside :
    let octets := Text.octets "\nk\n\np\np\np\np\np\np\n \nK"
    let r : Reader := [.chunk (octets.take 4), .interrupted, .chunk (octets.drop 4)]
    let block : Drawing := ["k", "", "p", "p", "p", "p", "p", "p"]
    r.Steady ∧ Framed r.rows [.skipped "", .block block, .skipped " ", .block ["K"]] ∧
    BoardSource.answers 3 r = [.rows block, .rows ["K"], .exhausted] := by
  intro octets r block
  have hsteady : r.Steady := by
    intro text h
    simp [r] at h
  have hrows : r.rows = "" :: (block ++ " " :: ["K"]) := by decide +kernel
  have hframed : Framed r.rows [.skipped "", .block block, .skipped " ", .block ["K"]] := by
    rw [hrows]
    have hlast : Framed (["K"] ++ []) [.block ["K"]] :=
      Framed.nil.cons_block (by decide) (.inr (by decide))
    apply Framed.skip (by decide)
    apply Framed.cons_block (by decide) (.inl (by decide))
    exact hlast.skip (by decide)
  obtain ⟨lines, segments, hcut, -, hunique, hanswers⟩ := answers_eq_framed hsteady
  obtain ⟨-, rfl⟩ := hunique (pieces newline r.octets) _ (cut_iff.2 rfl) hframed
  exact ⟨hsteady, hframed, hanswers 1⟩

end KingCheck.Input
