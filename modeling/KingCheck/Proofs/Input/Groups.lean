import KingCheck.Proofs.Board.RoundTrip
import KingCheck.Proofs.Input.Framing

/-!
# Texts in groups of lines

A group is up to eight lines that show something, with lines behind them that do not.  A
block begins at its first line and takes eight rows, so that it is the group's own if the group
has eight lines, and otherwise takes from what is behind it: first the blank lines, then, if
these are too few, the next group.  Where the blank lines make up the eight, each group has a
block of its own (`blocks_groups`), and a block with a blank row draws no board.
-/
namespace KingCheck

namespace Drawing

/-- The drawing is of the board without pieces. -/
def isSentinel (rows : Drawing) : Bool :=
  match Board.ofRows rows with
  | .ok board => board.isEmpty
  | .error _ => false

variable {rows : Drawing}

theorem isSentinel_iff : rows.isSentinel = true ↔
    ∃ board, Board.ofRows rows = .ok board ∧ board.isEmpty = true := by
  rw [isSentinel]
  cases Board.ofRows rows <;> simp

/-- A drawing that has not eight rows, or one that shows nothing, is refused. -/
theorem exists_ofRows_eq_error
    (h : rows.length ≠ boardSize ∨ ∃ row ∈ rows, Input.isBlankRow row = true) :
    ∃ reason, Board.ofRows rows = .error reason := by
  cases hrows : Board.ofRows rows with
  | error reason => exact ⟨reason, rfl⟩
  | ok board =>
    have hwell := (Board.ofRows_eq_ok_iff_draws.1 hrows).1
    rcases h with hlength | ⟨row, hrow, hblank⟩
    · exact absurd hwell.count hlength
    · rw [hwell.isBlankRow_eq_false hrow] at hblank
      exact absurd hblank (by decide)

end Drawing

namespace Input

open Text (Octets)

/-- Rows that begin with one that shows something begin with a block. -/
theorem blocks_of_shown {rows : List String} (hne : rows ≠ [])
    (hfirst : ∀ row, rows.head? = some row → isBlankRow row = false) :
    blocks rows = rows.take boardSize :: blocks (rows.drop boardSize) := by
  cases rows with
  | nil => exact absurd rfl hne
  | cons first others => exact blocks_cons_of_shown (hfirst first rfl) others

/-- Of rows the first of which show something, the block takes eight, and what is behind comes
next. -/
theorem blocks_append_of_shown {shown : List String} (hne : shown ≠ [])
    (hshown : ∀ row ∈ shown, isBlankRow row = false) (hlength : shown.length ≤ boardSize)
    (behind : List String) :
    blocks (shown ++ behind) =
      (shown ++ behind).take boardSize :: blocks (behind.drop (boardSize - shown.length)) := by
  have hfirst : ∀ row, (shown ++ behind).head? = some row → isBlankRow row = false := by
    intro row hrow
    cases shown with
    | nil => exact absurd rfl hne
    | cons first others =>
      obtain rfl : first = row := Option.some.inj hrow
      exact hshown first List.mem_cons_self
  rw [blocks_of_shown (List.append_ne_nil_of_left_ne_nil hne behind) hfirst, List.drop_append,
    List.drop_of_length_le hlength, List.nil_append]

/-- A block that begins with fewer than eight rows is refused if a row behind them is blank or
none is there. -/
theorem ofRows_take_of_short {shown behind : List String} (hshort : shown.length < boardSize)
    (hblank : ∀ row, behind.head? = some row → isBlankRow row = true) :
    ∃ reason, Board.ofRows ((shown ++ behind).take boardSize) = .error reason := by
  apply Drawing.exists_ofRows_eq_error
  cases behind with
  | nil =>
    left
    rw [List.append_nil, List.take_of_length_le (Nat.le_of_lt hshort)]
    exact Nat.ne_of_lt hshort
  | cons row behind =>
    right
    refine ⟨row, ?_, hblank row rfl⟩
    have hlack : boardSize - shown.length = boardSize - shown.length - 1 + 1 :=
      (Nat.sub_add_cancel (Nat.sub_pos_of_lt hshort)).symm
    rw [List.take_append, hlack, List.take_succ_cons]
    exact List.mem_append_right _ List.mem_cons_self

/-- Up to eight lines that show something, and the lines behind them that do not. -/
structure Group where
  lines : List Octets
  behind : List Octets
  lines_ne_nil : lines ≠ []
  length_le : lines.length ≤ boardSize
  shown : ∀ line ∈ lines, isBlankRow (rowOf line) = false
  blank : ∀ line ∈ behind, isBlankRow (rowOf line) = true
  newline_notMem : ∀ line ∈ lines ++ behind, newline ∉ line

namespace Group

variable (g : Group)

/-- The rows on the lines that show something. -/
def rows : Drawing := g.lines.map rowOf

/-- All rows of the group, those that show nothing included. -/
def allRows : List String := (g.lines ++ g.behind).map rowOf

/-- The block that begins with the group, if it takes no line of the next one. -/
def block : Drawing := g.allRows.take boardSize

/-- The group has eight lines that show something. -/
def isWhole : Bool := g.lines.length == boardSize

/-- The group of a drawing, with empty lines behind it. -/
def ofDrawing (rows : Drawing) (blanks : Nat) (hne : rows ≠ []) (hlength : rows.length ≤ boardSize)
    (hshown : ∀ row ∈ rows, isBlankRow (rowOf (Text.octets row)) = false)
    (hnewline : ∀ row ∈ rows, newline ∉ Text.octets row) : Group where
  lines := rows.map Text.octets
  behind := List.replicate blanks []
  lines_ne_nil := by simpa using hne
  length_le := by simpa using hlength
  shown := by simpa using hshown
  blank := by
    intro line hline
    rw [List.eq_of_mem_replicate hline]
    decide
  newline_notMem := by
    intro line hline
    rcases List.mem_append.1 hline with hdrawn | hblank
    · obtain ⟨row, hrow, rfl⟩ := List.mem_map.1 hdrawn
      exact hnewline row hrow
    · rw [List.eq_of_mem_replicate hblank]
      exact List.not_mem_nil

/-- The group draws the board without pieces. -/
def isSentinel : Bool := g.rows.isSentinel

/-- The blank lines behind the group make up eight. -/
def Filled : Prop := boardSize ≤ g.lines.length + g.behind.length

instance : Decidable g.Filled := inferInstanceAs (Decidable (_ ≤ _))

variable {g}

theorem isWhole_iff : g.isWhole = true ↔ g.lines.length = boardSize := by
  rw [isWhole, beq_iff_eq]

theorem filled_of_isWhole (h : g.isWhole = true) : g.Filled := by
  rw [Filled, ← isWhole_iff.1 h]
  exact Nat.le_add_right _ _

/-- A whole group is its own block. -/
theorem block_of_isWhole (h : g.isWhole = true) : g.block = g.rows := by
  have hlength : (g.lines.map rowOf).length = boardSize := by
    rw [List.length_map, isWhole_iff.1 h]
  rw [block, allRows, List.map_append, List.take_left' hlength, rows]

/-- The board without pieces takes eight lines. -/
theorem isWhole_of_isSentinel (h : g.isSentinel = true) : g.isWhole = true := by
  obtain ⟨board, hrows, -⟩ := Drawing.isSentinel_iff.1 h
  have := (Board.ofRows_eq_ok_iff_draws.1 hrows).1.count
  rw [isWhole_iff]
  rwa [rows, List.length_map] at this

/-- The block of a short group is refused. -/
theorem ofRows_block_of_short (h : g.isWhole = false) :
    ∃ reason, Board.ofRows g.block = .error reason := by
  have hshort : g.lines.length < boardSize := by
    apply Nat.lt_of_le_of_ne g.length_le
    intro heq
    rw [isWhole_iff.2 heq] at h
    exact absurd h (by decide)
  rw [block, allRows, List.map_append]
  apply ofRows_take_of_short
  · rwa [List.length_map]
  · intro row hrow
    obtain ⟨line, hline, rfl⟩ := List.mem_map.1 (List.mem_of_head? hrow)
    exact g.blank line hline

/-- What comes behind a group's block: what is left of its blank lines, and the rest. -/
theorem blocks_allRows_append_eq (g : Group) (rows : List String) :
    blocks (g.allRows ++ rows) = (g.allRows ++ rows).take boardSize ::
      blocks ((g.behind.map rowOf ++ rows).drop (boardSize - g.lines.length)) := by
  have hlength : (g.lines.map rowOf).length = g.lines.length := List.length_map rowOf
  rw [allRows, List.map_append, List.append_assoc, blocks_append_of_shown _ _ _, hlength]
  · simpa using g.lines_ne_nil
  · intro row hrow
    obtain ⟨line, hline, rfl⟩ := List.mem_map.1 hrow
    exact g.shown line hline
  · rw [hlength]
    exact g.length_le

/-- The blank lines behind a group make no block. -/
theorem isBlankRow_of_mem_drop {n : Nat} {row : String}
    (h : row ∈ (g.behind.map rowOf).drop n) : isBlankRow row = true := by
  obtain ⟨line, hline, rfl⟩ := List.mem_map.1 (List.mem_of_mem_drop h)
  exact g.blank line hline

/-- **A filled group has a block of its own.** -/
theorem blocks_allRows_append (h : g.Filled) (rows : List String) :
    blocks (g.allRows ++ rows) = g.block :: blocks rows := by
  have hall : boardSize ≤ g.allRows.length := by
    rw [allRows, List.length_map, List.length_append]
    exact h
  have hbehind : boardSize - g.lines.length ≤ (g.behind.map rowOf).length := by
    rw [List.length_map]
    exact Nat.sub_le_iff_le_add'.2 h
  rw [blocks_allRows_append_eq, List.take_append_of_le_length hall,
    List.drop_append_of_le_length hbehind,
    blocks_append_of_blank fun _ hrow => isBlankRow_of_mem_drop hrow]
  rfl

/-- The last group of a text has a block of its own, which may be short. -/
theorem blocks_allRows (g : Group) : blocks g.allRows = [g.block] := by
  have h := g.blocks_allRows_append_eq []
  rwa [List.append_nil, List.append_nil,
    blocks_of_blank fun _ hrow => isBlankRow_of_mem_drop hrow] at h

end Group

/-- **Groups that are filled have blocks of their own.** -/
theorem blocks_groups {groups : List Group} (h : ∀ g ∈ groups, g.Filled) (rows : List String) :
    blocks (groups.flatMap Group.allRows ++ rows) = groups.map Group.block ++ blocks rows := by
  induction groups with
  | nil => rfl
  | cons g groups ih =>
    rw [List.flatMap_cons, List.append_assoc,
      Group.blocks_allRows_append (h g List.mem_cons_self),
      ih fun g hg => h g (List.mem_cons_of_mem _ hg), List.map_cons, List.cons_append]

/-- A text in groups: blank lines may stand before the first, and one at least stands between
two of them.  Each line is ended by a newline. -/
structure GroupedText where
  before : List Octets
  groups : List Group
  before_blank : ∀ line ∈ before, isBlankRow (rowOf line) = true
  before_newline : ∀ line ∈ before, newline ∉ line
  separated : ∀ g ∈ groups.dropLast, g.behind ≠ []

namespace GroupedText

variable (text kept : GroupedText)

/-- The lines of the text. -/
def lines : List Octets := text.before ++ text.groups.flatMap fun g => g.lines ++ g.behind

/-- The octets of the text. -/
def octets : Octets := text.lines.flatMap (· ++ [newline])

/-- The groups before the board without pieces, or all. -/
def played : List Group := text.groups.takeWhile fun g => !g.isSentinel

/-- The answer that ends the stream: the board without pieces, or that there are no more. -/
def final : Answer := (text.groups.find? Group.isSentinel).elim .exhausted fun g => .rows g.rows

/-- Where a group comes before the board without pieces and is not the last of the text, the
blank lines behind it make up eight. -/
def Padded : Prop := ∀ g ∈ text.groups.dropLast.takeWhile (fun g => !g.isSentinel), g.Filled

instance : Decidable text.Padded := inferInstanceAs (Decidable (∀ _ ∈ _, Group.Filled _))

/-- A text keeps the whole groups of another and no more; its blank lines may differ. -/
def KeepsWhole : Prop :=
  kept.groups.map Group.lines = (text.groups.filter Group.isWhole).map Group.lines

variable {text kept}

/-- The rows of a reader of the text. -/
theorem rows_eq {r : Reader} (h : r.octets = text.octets) :
    r.rows = text.before.map rowOf ++ text.groups.flatMap Group.allRows := by
  have hlines : ∀ line ∈ text.lines, newline ∉ line := by
    intro line hline
    rcases List.mem_append.1 hline with hbefore | hgroups
    · exact text.before_newline line hbefore
    · obtain ⟨g, -, hg⟩ := List.mem_flatMap.1 hgroups
      exact g.newline_notMem line hg
  rw [Reader.rows, h, octets, Text.pieces_flatMap hlines, lines, List.map_append, List.map_flatMap]
  rfl

/-- The blocks of a reader of the text. -/
theorem blocks_rows {r : Reader} (h : r.octets = text.octets) :
    blocks r.rows = blocks (text.groups.flatMap Group.allRows) := by
  rw [rows_eq h]
  apply blocks_append_of_blank
  intro row hrow
  obtain ⟨line, hline, rfl⟩ := List.mem_map.1 hrow
  exact text.before_blank line hline

/-- Where no group draws the board without pieces, each has a block of its own. -/
theorem Padded.blocks_of_none (h : text.Padded)
    (hnone : text.groups.find? Group.isSentinel = none) :
    blocks (text.groups.flatMap Group.allRows) = text.played.map Group.block := by
  have hall : ∀ g ∈ text.groups, (!g.isSentinel) = true := by
    intro g hg
    simpa using List.find?_eq_none.1 hnone g hg
  rw [played, List.takeWhile_eq_self_iff.2 hall]
  by_cases hnil : text.groups = []
  · rw [hnil]
    exact blocks_of_blank fun _ hrow => absurd hrow List.not_mem_nil
  · have hfilled : ∀ g ∈ text.groups.dropLast, g.Filled := by
      have hbefore : ∀ g ∈ text.groups.dropLast, (!g.isSentinel) = true :=
        fun g hg => hall g (List.dropLast_subset _ hg)
      rwa [Padded, List.takeWhile_eq_self_iff.2 hbefore] at h
    rw [← List.dropLast_concat_getLast hnil, List.flatMap_append, List.flatMap_singleton,
      blocks_groups hfilled, Group.blocks_allRows, List.map_append, List.map_singleton]

/-- Up to the board without pieces, each group has a block of its own. -/
theorem Padded.blocks_of_some (h : text.Padded) {s : Group}
    (hsome : text.groups.find? Group.isSentinel = some s) :
    ∃ more, blocks (text.groups.flatMap Group.allRows) =
      text.played.map Group.block ++ s.rows :: more := by
  obtain ⟨hsentinel, first, rest, hgroups, hfirst⟩ := List.find?_eq_some_iff_append.1 hsome
  have hplayed : text.played = first := by
    rw [played, hgroups, List.takeWhile_append_of_pos hfirst, List.takeWhile_cons, hsentinel]
    exact List.append_nil _
  have hfilled : ∀ g ∈ first, g.Filled := by
    intro g hg
    apply h
    rw [hgroups, List.dropLast_append_of_ne_nil (List.cons_ne_nil s rest),
      List.takeWhile_append_of_pos hfirst]
    exact List.mem_append_left _ hg
  have hwhole := Group.isWhole_of_isSentinel hsentinel
  refine ⟨blocks (rest.flatMap Group.allRows), ?_⟩
  rw [hplayed, hgroups, List.flatMap_append, blocks_groups hfilled, List.flatMap_cons,
    Group.blocks_allRows_append (Group.filled_of_isWhole hwhole), Group.block_of_isWhole hwhole]

namespace KeepsWhole

theorem map_rows (h : text.KeepsWhole kept) :
    kept.groups.map Group.rows = (text.groups.filter Group.isWhole).map Group.rows := by
  have hrows : Group.rows = List.map rowOf ∘ Group.lines := rfl
  rw [hrows, ← List.map_map, ← List.map_map, h]

/-- All groups of a text that keeps whole groups are whole. -/
theorem isWhole (h : text.KeepsWhole kept) {g : Group} (hg : g ∈ kept.groups) :
    g.isWhole = true := by
  have hlines : g.lines ∈ kept.groups.map Group.lines := List.mem_map_of_mem hg
  rw [h] at hlines
  obtain ⟨g', hg', heq⟩ := List.mem_map.1 hlines
  rw [Group.isWhole, ← heq]
  exact (List.mem_filter.1 hg').2

theorem padded (h : text.KeepsWhole kept) : kept.Padded := by
  intro g hg
  have hmem := (List.dropLast_sublist _).mem ((List.takeWhile_sublist _).mem hg)
  exact Group.filled_of_isWhole (h.isWhole hmem)

/-- The groups that are played are the whole ones of those before. -/
theorem map_rows_played (h : text.KeepsWhole kept) :
    kept.played.map Group.rows = (text.played.filter Group.isWhole).map Group.rows := by
  have hsentinel : (fun g : Group => !g.isSentinel) =
      (fun rows : Drawing => !rows.isSentinel) ∘ Group.rows := rfl
  -- The board without pieces is whole, so that it ends the filtered groups at the same place.
  have hends : (fun g : Group => !g.isWhole || !g.isSentinel) = fun g => !g.isSentinel := by
    funext g
    cases hs : g.isSentinel with
    | false => simp
    | true => simp [Group.isWhole_of_isSentinel hs]
  calc kept.played.map Group.rows
      = (kept.groups.map Group.rows).takeWhile fun rows => !rows.isSentinel := by
        rw [List.takeWhile_map, ← hsentinel, played]
    _ = ((text.groups.filter Group.isWhole).takeWhile fun g => !g.isSentinel).map Group.rows := by
        rw [h.map_rows, List.takeWhile_map, ← hsentinel]
    _ = (text.played.filter Group.isWhole).map Group.rows := by
        rw [List.takeWhile_filter, hends, played]

/-- The stream ends as before. -/
theorem final_eq (h : text.KeepsWhole kept) : kept.final = text.final := by
  have hfinal : ∀ t : GroupedText, t.final =
      ((t.groups.map Group.rows).find? Drawing.isSentinel).elim .exhausted .rows := by
    intro t
    rw [final, List.find?_map, Option.elim_map]
    rfl
  have hends : (fun g : Group => decide (g.isWhole = true ∧ g.isSentinel = true)) =
      Group.isSentinel := by
    funext g
    cases hs : g.isSentinel with
    | false => simp
    | true => simp [Group.isWhole_of_isSentinel hs]
  have hsentinel : Group.isSentinel = Drawing.isSentinel ∘ Group.rows := rfl
  rw [hfinal, hfinal, h.map_rows, List.find?_map, List.find?_map, ← hsentinel, List.find?_filter,
    hends]

end KeepsWhole

end GroupedText

end Input
end KingCheck
