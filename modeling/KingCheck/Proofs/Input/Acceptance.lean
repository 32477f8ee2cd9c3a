import KingCheck.Proofs.Input.Segments

/-!
# Octets that draw a board

A board is read from rows of characters, and rows are decoded from octets with replacements for what
encodes nothing.  Neither step accepts more than it should: the rows of a block are a board exactly
if each line is eight octets of the letters of a drawing and returns behind them (`PlainLine`), and
a line is passed over only if its octets are those of a text of white space.  A replacement is
neither a letter nor white space, and octets that read without one are the encoding of what they
read as.
-/
namespace KingCheck.Input

open Text (Cut Octets cut_iff pieces replacement)

/-- The octets of the letters of a drawing. -/
def letterOctets : Octets := Text.octets ".pnbrqkPNBRQK"

/-- The octet of a return. -/
def carriageReturn : UInt8 := 0x0d

/-- A line of eight octets, each of which is a letter of a drawing, and of any returns behind
them. -/
def PlainLine (line : Octets) : Prop :=
  ∃ letters returns, line = letters ++ List.replicate returns carriageReturn ∧
    letters.length = boardSize ∧ ∀ b ∈ letters, b ∈ letterOctets

/-! ### One line -/

section Line

variable {line : Octets} {b : UInt8} {c : Char}

theorem letterOctets_eq : letterOctets = Cell.letters.map fun c => UInt8.ofNat c.toNat := by decide

theorem toNat_lt_of_mem_letters (h : c ∈ Cell.letters) : c.toNat < 0x80 := by
  have hall : (Cell.letters.all fun c => decide (c.toNat < 0x80)) = true := by decide
  exact of_decide_eq_true (List.all_eq_true.1 hall c h)

theorem toNat_lt_of_mem_letterOctets (h : b ∈ letterOctets) : b.toNat < 0x80 := by
  have hall : (letterOctets.all fun b => decide (b.toNat < 0x80)) = true := by decide
  exact of_decide_eq_true (List.all_eq_true.1 hall b h)

theorem mem_letters_of_mem_letterOctets (h : b ∈ letterOctets) :
    Char.ofNat b.toNat ∈ Cell.letters := by
  have hall : (letterOctets.all fun b => decide (Char.ofNat b.toNat ∈ Cell.letters)) = true := by
    decide
  exact of_decide_eq_true (List.all_eq_true.1 hall b h)

/-- A plain line holds octets of the first 128 only. -/
theorem PlainLine.toNat_lt (h : PlainLine line) (hb : b ∈ line) : b.toNat < 0x80 := by
  obtain ⟨letters, n, rfl, -, hletters⟩ := h
  rcases List.mem_append.1 hb with hletter | hreturn
  · exact toNat_lt_of_mem_letterOctets (hletters b hletter)
  · rw [List.eq_of_mem_replicate hreturn]
    decide

theorem toList_rowOf (line : Octets) :
    (rowOf line).toList = Text.trimReturns (Text.decode line) := by
  rw [rowOf, String.toList_ofList]

/-- What is read from a line is on its row, or a return that is taken off. -/
theorem mem_rowOf_or_eq_return (h : c ∈ Text.decode line) :
    c ∈ (rowOf line).toList ∨ c = '\r' := by
  obtain ⟨n, hn⟩ := Text.exists_trimReturns (Text.decode line)
  rw [hn, ← toList_rowOf, List.mem_append] at h
  exact h.imp_right List.eq_of_mem_replicate

/-- A line whose row holds no replacement is the encoding of what it reads as. -/
theorem encode_decode_of_rowOf (h : replacement ∉ (rowOf line).toList) :
    Text.encode (Text.decode line) = line := by
  apply Text.encode_decode
  intro hmem
  rcases mem_rowOf_or_eq_return hmem with hrow | hreturn
  · exact h hrow
  · exact absurd hreturn (by decide)

/-- A sound row is read from a plain line. -/
theorem plainLine_of_soundRow (h : Drawing.SoundRow (rowOf line)) : PlainLine line := by
  obtain ⟨hlength, hletters⟩ := h
  have hlt : ∀ c ∈ Text.decode line, c.toNat < 0x80 := by
    intro c hc
    rcases mem_rowOf_or_eq_return hc with hrow | rfl
    · exact toNat_lt_of_mem_letters (hletters c hrow)
    · decide
  have hline : Text.encode (Text.decode line) = line :=
    encode_decode_of_rowOf fun hmem => absurd (hletters _ hmem) (by decide)
  obtain ⟨n, hn⟩ := Text.exists_trimReturns (Text.decode line)
  rw [Text.encode_of_lt hlt, hn, ← toList_rowOf, List.map_append, List.map_replicate] at hline
  refine ⟨_, n, hline.symm, by rw [List.length_map, String.length_toList, hlength], ?_⟩
  intro b hb
  obtain ⟨c, hc, rfl⟩ := List.mem_map.1 hb
  rw [letterOctets_eq]
  exact List.mem_map_of_mem (hletters c hc)

/-- A plain line is read as a sound row. -/
theorem PlainLine.soundRow (h : PlainLine line) : Drawing.SoundRow (rowOf line) := by
  have hlt : ∀ b ∈ line, b.toNat < 0x80 := fun b hb => h.toNat_lt hb
  obtain ⟨octets, n, rfl, hlength, hoctets⟩ := h
  have hletters : ∀ c ∈ octets.map fun b => Char.ofNat b.toNat, c ∈ Cell.letters := by
    intro c hc
    obtain ⟨b, hb, rfl⟩ := List.mem_map.1 hc
    exact mem_letters_of_mem_letterOctets (hoctets b hb)
  have hreturn : '\r' ∉ octets.map fun b => Char.ofNat b.toNat :=
    fun hmem => absurd (hletters _ hmem) (by decide)
  have hchar : Char.ofNat carriageReturn.toNat = '\r' := by decide
  have hrow : (rowOf (octets ++ List.replicate n carriageReturn)).toList =
      octets.map fun b => Char.ofNat b.toNat := by
    rw [toList_rowOf, Text.decode_of_lt hlt, List.map_append, List.map_replicate, hchar,
      Text.trimReturns_append_replicate, Text.trimReturns_of_not_mem hreturn]
  refine ⟨?_, hrow ▸ hletters⟩
  rw [← String.length_toList, hrow, List.length_map, hlength]

/-- **A line that is passed over encodes a text of white space.** -/
theorem exists_encode_of_isBlankRow (h : isBlankRow (rowOf line) = true) :
    ∃ cs, line = Text.encode cs ∧ cs.all Text.isBlank = true := by
  have hblank : ∀ c ∈ (rowOf line).toList, Text.isBlank c = true := List.all_eq_true.1 h
  have hline : Text.encode (Text.decode line) = line :=
    encode_decode_of_rowOf fun hmem => absurd (hblank _ hmem) (by decide)
  refine ⟨Text.decode line, hline.symm, List.all_eq_true.2 fun c hc => ?_⟩
  rcases mem_rowOf_or_eq_return hc with hrow | rfl
  · exact hblank c hrow
  · decide

end Line

/-! ### All lines -/

/-- A part of some lines: one that is skipped, or those of a block. -/
inductive Stretch where
  | skipped (line : Octets)
  | block (lines : List Octets)
deriving DecidableEq

namespace Stretch

/-- The lines of a stretch. -/
def lines : Stretch → List Octets
  | skipped line => [line]
  | block lines => lines

/-- The rows that are read from a stretch. -/
def segment : Stretch → Segment
  | skipped line => .skipped (rowOf line)
  | block lines => .block (lines.map rowOf)

/-- The lines of a block. -/
def block? : Stretch → Option (List Octets)
  | skipped _ => none
  | block lines => some lines

theorem rows_segment (stretch : Stretch) : stretch.segment.rows = stretch.lines.map rowOf := by
  cases stretch <;> rfl

theorem drawing?_segment (stretch : Stretch) :
    stretch.segment.drawing? = stretch.block?.map fun lines => lines.map rowOf := by
  cases stretch <;> rfl

variable {stretches other : List Stretch}

/-- A stretch is known by its segment and its lines. -/
theorem eq_of_segment_eq {a b : Stretch} (h : a.segment = b.segment) (hlines : a.lines = b.lines) :
    a = b := by
  cases a <;> cases b <;> simp_all [segment, lines]

/-- Stretches of the same lines that are read as the same segments are the same. -/
theorem eq_of_map_segment_eq (h : stretches.map segment = other.map segment)
    (hlines : stretches.flatMap lines = other.flatMap lines) : stretches = other := by
  induction stretches generalizing other with
  | nil => simpa using h
  | cons first stretches ih =>
    cases other with
    | nil => simp at h
    | cons first' other =>
      obtain ⟨hfirst, hrest⟩ := List.cons.inj h
      rw [List.flatMap_cons, List.flatMap_cons] at hlines
      have hlength : first.lines.length = first'.lines.length := by
        have hrows := congrArg (fun segment => segment.rows.length) hfirst
        simpa only [rows_segment, List.length_map] using hrows
      obtain ⟨hline, hothers⟩ := List.append_inj hlines hlength
      rw [eq_of_segment_eq hfirst hline, ih hrest hothers]

/-- Where rows are cut into segments, so are the lines that they are read from. -/
theorem exists_map_segment_eq {segments : List Segment} {all : List Octets}
    (h : segments.flatMap Segment.rows = all.map rowOf) :
    ∃ stretches : List Stretch,
      stretches.flatMap lines = all ∧ stretches.map segment = segments := by
  induction segments generalizing all with
  | nil => exact ⟨[], (List.map_eq_nil_iff.1 h.symm).symm, rfl⟩
  | cons first segments ih =>
    rw [List.flatMap_cons] at h
    obtain ⟨front, back, rfl, hfront, hback⟩ := List.map_eq_append_iff.1 h.symm
    obtain ⟨stretches, rfl, rfl⟩ := ih hback.symm
    cases first with
    | skipped row =>
      obtain ⟨line, rfl, rfl⟩ := List.map_eq_singleton_iff.1 hfront
      exact ⟨.skipped line :: stretches, rfl, rfl⟩
    | block rows =>
      obtain rfl : front.map rowOf = rows := hfront
      exact ⟨.block front :: stretches, rfl, rfl⟩

end Stretch

/-- The octets of a reader are made up of these stretches: their lines are those of the octets, and
the rows on them are cut into skipped rows and blocks. -/
structure Reader.Stretched (r : Reader) (stretches : List Stretch) : Prop where
  cut : Cut newline r.octets (stretches.flatMap Stretch.lines)
  framed : Framed ((stretches.flatMap Stretch.lines).map rowOf) (stretches.map Stretch.segment)

namespace Reader.Stretched

variable {r : Reader} {stretches other : List Stretch} {line : Octets} {lines : List Octets}

theorem unique (h : r.Stretched stretches) (h' : r.Stretched other) : stretches = other := by
  have hlines : stretches.flatMap Stretch.lines = other.flatMap Stretch.lines := by
    rw [← cut_iff.1 h.cut, ← cut_iff.1 h'.cut]
  exact Stretch.eq_of_map_segment_eq (h.framed.unique (hlines ▸ h'.framed)) hlines

/-- The drawings are what is read from the blocks. -/
theorem filterMap_drawing? : (stretches.map Stretch.segment).filterMap Segment.drawing? =
    (stretches.filterMap Stretch.block?).map fun lines => lines.map rowOf := by
  rw [List.filterMap_map, List.map_filterMap]
  exact List.filterMap_congr fun stretch _ => stretch.drawing?_segment

end Reader.Stretched

/-- Rows draw a board exactly if they are read from eight plain lines. -/
theorem wellDrawn_map_rowOf_iff {lines : List Octets} : Drawing.WellDrawn (lines.map rowOf) ↔
    lines.length = boardSize ∧ ∀ line ∈ lines, PlainLine line := by
  constructor
  · intro h
    refine ⟨by rw [← h.count, List.length_map], fun line hline => ?_⟩
    exact plainLine_of_soundRow (h.sound _ (List.mem_map_of_mem hline))
  · intro h
    obtain ⟨hlength, hplain⟩ := h
    refine ⟨by rw [List.length_map, hlength], fun row hrow => ?_⟩
    obtain ⟨line, hline, rfl⟩ := List.mem_map.1 hrow
    exact (hplain line hline).soundRow

/-- **A board is accepted exactly if it is plain on every line.**  The octets of a reader whose
reads do not fail are made up of skipped lines and blocks in one way only, and the reader hands out
the rows of these blocks and then no more.  Such rows are a board exactly if the block is eight
plain lines, and are refused as malformed otherwise; a line that is skipped encodes a text of white
space. -/
theorem Reader.accepts_plain_lines {r : Reader} (hr : r.Steady) :
    ∃ stretches, r.Stretched stretches ∧ (∀ other, r.Stretched other → other = stretches) ∧
      (∀ extra, BoardSource.answers ((stretches.filterMap Stretch.block?).length + extra) r =
        (stretches.filterMap Stretch.block?).map (fun lines => .rows (lines.map rowOf)) ++
          List.replicate extra .exhausted) ∧
      (∀ lines, .block lines ∈ stretches →
        ((∃ b, Board.ofRows (lines.map rowOf) = .ok b) ↔
          lines.length = boardSize ∧ ∀ line ∈ lines, PlainLine line) ∧
        ((∃ d, Board.ofRows (lines.map rowOf) = .error (.malformed d)) ↔
          ¬ (lines.length = boardSize ∧ ∀ line ∈ lines, PlainLine line))) ∧
      ∀ line, .skipped line ∈ stretches →
        ∃ cs, line = Text.encode cs ∧ cs.all Text.isBlank = true := by
  obtain ⟨segments, hframed, hdrawings⟩ := exists_framed r.rows
  obtain ⟨stretches, hlines, rfl⟩ := Stretch.exists_map_segment_eq hframed.rows_eq
  have hstretched : r.Stretched stretches := ⟨cut_iff.2 hlines.symm, hlines ▸ hframed⟩
  refine ⟨stretches, hstretched, fun other h => h.unique hstretched, ?_, ?_, ?_⟩
  · intro extra
    have hanswers := answers_of_steady hr extra
    rw [← hdrawings, Stretched.filterMap_drawing?, List.length_map, List.map_map] at hanswers
    exact hanswers
  · intro lines _
    rw [← wellDrawn_map_rowOf_iff]
    exact ⟨Board.exists_ofRows_eq_ok_iff, Board.exists_ofRows_eq_malformed_iff⟩
  · intro line hline
    exact exists_encode_of_isBlankRow (hframed.skipped_blank _ (List.mem_map_of_mem hline))

/-- The lines of a drawing, each with two returns. -/
def returned (rows : Drawing) : List Octets :=
  rows.map fun row => Text.octets row ++ List.replicate 2 carriageReturn

/-- The lines of the same drawing, but that the last dot of the first row is written in two octets,
for which another dot is left out. -/
def overlong : List Octets :=
  (Text.octets "k....." ++ [0xc0, 0xae]) :: returned (Drawing.twoKings.drop 1)

/-- After a line with a wide blank the first drawing is accepted and the second, of eight octets on
each line, is not. -/
theorem Reader.accepts_plain_lines_overlong :
    let stretches : List Stretch :=
      [.skipped [0xc2, 0xa0], .block (returned Drawing.twoKings), .block overlong]
    let r := Reader.ofOctets ((stretches.flatMap Stretch.lines).flatMap (· ++ [newline]))
    r.Steady ∧ r.Stretched stretches ∧
    (∃ b, Board.ofRows ((returned Drawing.twoKings).map rowOf) = .ok b) ∧
    (∃ d, Board.ofRows (overlong.map rowOf) = .error (.malformed d)) ∧
    (∃ cs, [0xc2, 0xa0] = Text.encode cs ∧ cs.all Text.isBlank = true) ∧
    BoardSource.answers 3 r = [.rows Drawing.twoKings, .rows (overlong.map rowOf), .exhausted] := by
  intro stretches r
  have hsteady : r.Steady := by
    intro text h
    simp [r, Reader.ofOctets] at h
  have hcut : pieces newline r.octets = stretches.flatMap Stretch.lines := by decide +kernel
  have hrows : (stretches.flatMap Stretch.lines).map rowOf =
      "\u00a0" :: (Drawing.twoKings ++ (overlong.map rowOf ++ [])) := by decide +kernel
  have hsegments : stretches.map Stretch.segment =
      [.skipped "\u00a0", .block Drawing.twoKings, .block (overlong.map rowOf)] := by
    decide +kernel
  have hframed : Framed ((stretches.flatMap Stretch.lines).map rowOf)
      (stretches.map Stretch.segment) := by
    rw [hrows, hsegments]
    apply Framed.skip (by decide)
    apply Framed.cons_block (by decide) (.inl (by decide))
    exact Framed.nil.cons_block (by decide) (.inl (by decide))
  have hplain : ∀ line ∈ returned Drawing.twoKings, PlainLine line := by
    intro line hline
    have hletters : ∀ row ∈ Drawing.twoKings, (Text.octets row).length = boardSize ∧
        Text.octets row ⊆ letterOctets := by decide +kernel
    obtain ⟨row, hrow, rfl⟩ := List.mem_map.1 hline
    exact ⟨Text.octets row, 2, rfl, (hletters row hrow).1, fun _ hb => (hletters row hrow).2 hb⟩
  obtain ⟨_, hstretched, hunique, hanswers, hblocks, hskipped⟩ := accepts_plain_lines hsteady
  obtain rfl := hunique stretches ⟨cut_iff.2 hcut, hframed⟩
  refine ⟨hsteady, hstretched, (hblocks _ (by simp [stretches])).1.2 ⟨by decide, hplain⟩,
    (hblocks overlong (by simp [stretches])).2.2 fun h => ?_, hskipped _ (by simp [stretches]), ?_⟩
  · have hlt := (h.2 _ List.mem_cons_self).toNat_lt (b := 0xc0) (by decide)
    exact absurd hlt (by decide)
  · refine (hanswers 1).trans ?_
    decide +kernel

end KingCheck.Input
