import KingCheck.Proofs.Input.Groups
import KingCheck.Proofs.Referee.Tally
import Mathlib.Data.List.Basic

/-!
# What a short board costs

A run that leaves bad boards out goes on behind the eight lines that it took for one, and not
at the next blank line.  So a short board costs the lines behind it that make up its eight
(`run_of_short`).  Where these are blank, it is left out alone, and the other boards and the
end of the stream are what they are without it; where they are not, the next board is lost.
-/
namespace KingCheck

namespace Input

open Supply (Stream)

variable {policy : MissingKing} {r rest : Reader}

namespace Group

variable {g : Group}

/-- A group ends the stream exactly if it draws the board without pieces. -/
theorem isFinal_block (g : Group) : (Answer.rows g.block).isFinal policy = g.isSentinel := by
  by_cases hwhole : g.isWhole = true
  · rw [Bool.eq_iff_iff, Answer.isFinal_rows_iff, block_of_isWhole hwhole]
    exact Drawing.isSentinel_iff.symm
  · rw [Bool.not_eq_true] at hwhole
    obtain ⟨reason, hrows⟩ := ofRows_block_of_short hwhole
    rw [Bool.eq_iff_iff, Answer.isFinal_rows_iff]
    constructor
    · rintro ⟨board, hboard, -⟩
      rw [hrows] at hboard
      exact absurd hboard (by simp)
    · intro hsentinel
      rw [isWhole_of_isSentinel hsentinel] at hwhole
      exact absurd hwhole (by decide)

/-- A short group is refused. -/
theorem fate_block_of_short (policy : MissingKing) (h : g.isWhole = false) :
    ∃ reason, (Answer.rows g.block).fate policy = .refused reason := by
  obtain ⟨reason, hrows⟩ := ofRows_block_of_short h
  exact ⟨reason, by simp [Answer.fate, hrows]⟩

/-- The answers that hand out some groups. -/
def answers (groups : List Group) : List Answer := (groups.map block).map .rows

/-- A short group is not judged. -/
theorem judgements_answers_filter (groups : List Group) :
    Answer.judgements policy (answers (groups.filter isWhole)) =
      Answer.judgements policy (answers groups) := by
  rw [Answer.judgements, Answer.judgements, answers, answers, List.filterMap_map,
    List.filterMap_map, List.filterMap_map, List.filterMap_map, List.filterMap_filter]
  apply List.filterMap_congr
  intro g _
  by_cases hwhole : g.isWhole = true
  · rw [if_pos hwhole]
  · rw [Bool.not_eq_true] at hwhole
    obtain ⟨reason, hfate⟩ := fate_block_of_short policy hwhole
    rw [if_neg (by simp [hwhole])]
    simp [Answer.judgement?, hfate]

/-- A short group is counted as refused. -/
theorem countP_isRefused_answers (groups : List Group) :
    (answers groups).countP (Answer.isRefused policy) =
      (answers (groups.filter isWhole)).countP (Answer.isRefused policy) +
        groups.countP fun g => !g.isWhole := by
  rw [answers, answers, List.countP_map, List.countP_map, List.countP_map, List.countP_map,
    List.countP_eq_countP_filter_add groups _ isWhole]
  congr 1
  rw [List.countP_filter]
  apply List.countP_congr
  intro g _
  by_cases hwhole : g.isWhole = true
  · simp [hwhole]
  · rw [Bool.not_eq_true] at hwhole
    obtain ⟨reason, hfate⟩ := fate_block_of_short policy hwhole
    simp [hwhole, Answer.isRefused, hfate]

end Group

namespace Reader

/-- A block in front comes before the stream of the other blocks. -/
theorem stream_cons {block : Drawing} (hr : r.Steady) (hrest : rest.Steady)
    (hblocks : blocks r.rows = block :: blocks rest.rows)
    (hgoing : (Answer.rows block).isFinal policy = false) {before : List Answer} {final : Answer}
    (h : Stream policy rest before final) : Stream policy r (.rows block :: before) final := by
  obtain ⟨hanswer, hsteady, hafter⟩ := nextBlock_of_steady hr
  rw [hblocks] at hanswer hafter
  refine ⟨?_, ?_, h.ended⟩
  · have hanswers := answers_eq_of_blocks_eq hsteady hrest hafter (before.length + 1)
    rw [h.answers] at hanswers
    exact congrArg₂ List.cons hanswer hanswers
  · intro a ha
    rcases List.mem_cons.1 ha with rfl | hbefore
    · exact hgoing
    · exact h.going a hbefore

/-- A reader none of whose blocks ends the stream is read to its end. -/
theorem stream_of_going (hr : r.Steady) {drawings : List Drawing}
    (hblocks : blocks r.rows = drawings)
    (hgoing : ∀ a ∈ drawings.map Answer.rows, a.isFinal policy = false) :
    Stream policy r (drawings.map .rows) .exhausted := by
  subst hblocks
  refine ⟨?_, hgoing, rfl⟩
  rw [List.length_map]
  exact answers_of_steady hr 1

/-- A reader is read to the first block that ends the stream. -/
theorem stream_of_final (hr : r.Steady) {drawings more : List Drawing} {last : Drawing}
    (hblocks : blocks r.rows = drawings ++ last :: more)
    (hgoing : ∀ a ∈ drawings.map Answer.rows, a.isFinal policy = false)
    (hfinal : (Answer.rows last).isFinal policy = true) :
    Stream policy r (drawings.map .rows) (.rows last) := by
  refine ⟨?_, hgoing, hfinal⟩
  have hanswers := answers_of_steady hr 0
  have htake := BoardSource.take_answers (drawings.length + 1) more.length r
  have hlength : (blocks r.rows).length + 0 = drawings.length + 1 + more.length := by
    rw [hblocks, List.length_append, List.length_cons]
    omega
  have hmap : drawings.map Answer.rows ++ .rows last :: more.map .rows =
      (drawings.map .rows ++ [.rows last]) ++ more.map .rows := (List.append_cons _ _ _)
  rw [← hlength, hanswers, hblocks, List.replicate_zero, List.append_nil, List.map_append,
    List.map_cons, hmap, List.take_left' (by simp)] at htake
  rw [List.length_map, ← htake]

end Reader

/-- **The stream of a padded text.**  Its groups are handed out one by one, up to the board
without pieces or to the end. -/
theorem GroupedText.stream {text : GroupedText} (hr : r.Steady) (htext : r.octets = text.octets)
    (hpadded : text.Padded) : Stream policy r (Group.answers text.played) text.final := by
  have hgoing : ∀ a ∈ Group.answers text.played, a.isFinal policy = false := by
    intro a ha
    rw [Group.answers, List.map_map] at ha
    obtain ⟨g, hg, rfl⟩ := List.mem_map.1 ha
    rw [Function.comp_apply, Group.isFinal_block]
    simpa using List.mem_takeWhile_imp hg
  have hblocks := GroupedText.blocks_rows htext
  rw [GroupedText.final]
  cases hfind : text.groups.find? Group.isSentinel with
  | none => exact Reader.stream_of_going hr (hblocks.trans (hpadded.blocks_of_none hfind)) hgoing
  | some s =>
    obtain ⟨more, hmore⟩ := hpadded.blocks_of_some hfind
    apply Reader.stream_of_final hr (hblocks.trans hmore) hgoing
    rw [Answer.isFinal_rows_iff]
    exact Drawing.isSentinel_iff.1 (List.find?_eq_some_iff_append.1 hfind).1

/-- What a text that keeps the whole groups of another hands out. -/
theorem GroupedText.KeepsWhole.answers_played {text kept : GroupedText}
    (h : text.KeepsWhole kept) :
    Group.answers kept.played = Group.answers (text.played.filter Group.isWhole) := by
  have hkept : kept.played.map Group.block = kept.played.map Group.rows := by
    apply List.map_congr_left
    intro g hg
    exact Group.block_of_isWhole (h.isWhole ((List.takeWhile_sublist _).mem hg))
  have htext : (text.played.filter Group.isWhole).map Group.block =
      (text.played.filter Group.isWhole).map Group.rows := by
    apply List.map_congr_left
    intro g hg
    exact Group.block_of_isWhole (List.mem_filter.1 hg).2
  rw [Group.answers, Group.answers, hkept, htext, h.map_rows_played]

end Input

theorem Fate.ending_map (fate : Fate) (k : Nat) (summary : Summary) (f : Summary → Summary) :
    fate.ending k (f summary) = (fate.ending k summary).map f := by
  cases fate <;> rfl

/-- Two runs show the same but that one left out more boards. -/
structure Run.DropsMore {κ : Type} (dropped : Nat) (run other : Run κ) : Prop where
  sent : run.sent = other.sent
  finishes : run.finishes = other.finishes
  outcome : run.outcome = other.outcome.map fun summary =>
    { summary with skipped := summary.skipped + dropped }

/-- Boards that are left out do not show in the sink. -/
theorem Run.DropsMore.sink_eq {κ : Type} [ReportSink κ] {dropped : Nat} {run other : Run κ}
    {sink : κ} (h : run.DropsMore dropped other) (hrun : run.Delivers sink)
    (hother : other.Delivers sink) : run.sink = other.sink := by
  refine hrun.sink_eq hother h.sent ?_
  rw [h.outcome]
  cases other.outcome <;> rfl

/-- Runs that read streams with the same judgements and the same end show the same. -/
theorem Run.Covers.dropsMore {κ : Type} {policy : MissingKing} {before before' : List Answer}
    {final : Answer} {run other : Run κ} {dropped : Nat} (h : run.Covers policy before final)
    (h' : other.Covers policy before' final)
    (hjudged : Answer.judgements policy before = Answer.judgements policy before')
    (hdropped : before.countP (Answer.isRefused policy) =
      before'.countP (Answer.isRefused policy) + dropped) : run.DropsMore dropped other := by
  have houtcome : run.outcome = other.outcome.map fun summary =>
      { summary with skipped := summary.skipped + dropped } := by
    rw [h.outcome, h'.outcome, ← Fate.ending_map, Answer.counts, Answer.counts, hjudged, hdropped]
  refine ⟨?_, ?_, houtcome⟩
  · rw [h.sent, h'.sent, hjudged]
  · rw [h.finishes, h'.finishes, houtcome]
    cases other.outcome <;> rfl

/-- Of two runs, one over a text and one over its whole groups, the first leaves out the short
groups alone: it shows the same but for their number, and both stop at the same place. -/
structure Run.LeavesOutShort {κ : Type} (text : Input.GroupedText) (run whole : Run κ) : Prop where
  dropsMore : run.DropsMore (text.played.countP fun g => !g.isWhole) whole
  read : Run.readBy run.actions = Input.Group.answers text.played ++ [text.final]
  whole_read : Run.readBy whole.actions =
    Input.Group.answers (text.played.filter Input.Group.isWhole) ++ [text.final]

namespace Referee

open Input
open ReportSink (Willing)
open Run (readBy)

variable {κ : Type} [ReportSink κ]

/-- A referee at its beginning, which leaves bad boards out. -/
theorem tolerant_of_willing {sink : κ} (hsink : Willing sink) {policy : MissingKing}
    (reader : Reader) :
    ({ source := reader, sink, options := ⟨.skip, policy⟩ } : Referee Reader κ).Tolerant :=
  ⟨rfl, hsink⟩

/-- **A short board costs the lines that make up its eight.**  It is left out with them, and
the run goes on behind them. -/
theorem run_of_short {sink : κ} (hsink : Willing sink) {policy : MissingKing} {r rest : Reader}
    (hr : r.Steady) (hrest : rest.Steady) {before shown behind : List String}
    (hbefore : ∀ row ∈ before, isBlankRow row = true) (hne : shown ≠ [])
    (hshown : ∀ row ∈ shown, isBlankRow row = false) (hshort : shown.length < boardSize)
    (hbehind : ∀ row, behind.head? = some row → isBlankRow row = true)
    (hrows : r.rows = before ++ (shown ++ behind))
    (hleft : rest.rows = behind.drop (boardSize - shown.length)) :
    let run := ({ source := r, sink, options := ⟨.skip, policy⟩ } : Referee Reader κ).run
    let other := ({ source := rest, sink, options := ⟨.skip, policy⟩ } : Referee Reader κ).run
    run.DropsMore 1 other ∧
      readBy run.actions = .rows ((shown ++ behind).take boardSize) :: readBy other.actions := by
  intro run other
  have ht := @tolerant_of_willing κ _ sink hsink policy
  obtain ⟨reason, hrefused⟩ := ofRows_take_of_short hshort hbehind
  have hfate : (Answer.rows ((shown ++ behind).take boardSize)).fate policy = .refused reason := by
    simp [Answer.fate, hrefused]
  obtain ⟨left, final, hstream, hother⟩ :=
    (runsTo_run _).exists_covers (ht rest) rfl rfl
  have hblocks : blocks r.rows = (shown ++ behind).take boardSize :: blocks rest.rows := by
    rw [hrows, hleft, blocks_append_of_blank hbefore,
      blocks_append_of_shown hne hshown (Nat.le_of_lt hshort)]
  have hrun : run.Covers policy (.rows ((shown ++ behind).take boardSize) :: left) final :=
    (ht r).covers rfl rfl
      (Reader.stream_cons hr hrest hblocks (by simp [Answer.isFinal, hfate]) hstream)
  refine ⟨hrun.dropsMore hother ?_ ?_, ?_⟩
  · simp [Answer.judgements, Answer.judgement?, hfate]
  · simp [Answer.isRefused, hfate]
  · rw [hrun.read, hother.read, List.cons_append]

/-- A run over a padded text leaves out each short group alone. -/
theorem run_of_padded {sink : κ} (hsink : Willing sink) {policy : MissingKing} {r other : Reader}
    (hr : r.Steady) (hother : other.Steady) {text kept : GroupedText}
    (htext : r.octets = text.octets) (hkept : other.octets = kept.octets)
    (hpadded : text.Padded) (hkeeps : text.KeepsWhole kept) :
    let run := ({ source := r, sink, options := ⟨.skip, policy⟩ } : Referee Reader κ).run
    let whole := ({ source := other, sink, options := ⟨.skip, policy⟩ } : Referee Reader κ).run
    run.LeavesOutShort text whole := by
  intro run whole
  have ht := @tolerant_of_willing κ _ sink hsink policy
  have hrun : run.Covers policy (Group.answers text.played) text.final :=
    (ht r).covers rfl rfl (GroupedText.stream hr htext hpadded)
  have hwhole : whole.Covers policy (Group.answers kept.played) kept.final :=
    (ht other).covers rfl rfl (GroupedText.stream hother hkept hkeeps.padded)
  rw [hkeeps.answers_played, hkeeps.final_eq] at hwhole
  refine ⟨hrun.dropsMore hwhole ?_ ?_, hrun.read, hwhole.read⟩
  · exact (Group.judgements_answers_filter _).symm
  · exact Group.countP_isRefused_answers _

/-- A row alone, blank lines, a board in check and the board without pieces; behind it another
row alone and the board again. -/
def shortFirst (blanks : Nat) : GroupedText where
  before := []
  groups := [.ofDrawing ["k"] (blanks + 1) (by decide) (by decide) (by decide) (by decide),
    .ofDrawing .rookCheck 1 (by decide) (by decide) (by decide +kernel) (by decide +kernel),
    .ofDrawing .cleared 1 (by decide) (by decide) (by decide +kernel) (by decide +kernel),
    .ofDrawing ["K"] 1 (by decide) (by decide) (by decide) (by decide),
    .ofDrawing .rookCheck 0 (by decide) (by decide) (by decide +kernel) (by decide +kernel)]
  before_blank := by simp
  before_newline := by simp
  separated := by simp [Group.ofDrawing]

/-- The boards of eight rows alone. -/
def wholeOnly : GroupedText where
  before := []
  groups := [
    .ofDrawing .rookCheck 1 (by decide) (by decide) (by decide +kernel) (by decide +kernel),
    .ofDrawing .cleared 1 (by decide) (by decide) (by decide +kernel) (by decide +kernel),
    .ofDrawing .rookCheck 0 (by decide) (by decide) (by decide +kernel) (by decide +kernel)]
  before_blank := by simp
  before_newline := by simp
  separated := by simp [Group.ofDrawing]

theorem keepsWhole_wholeOnly (blanks : Nat) : (shortFirst blanks).KeepsWhole wholeOnly := rfl

/-- The run over the boards of eight rows reports on the first and stops at the second. -/
theorem run_wholeOnly (reader : Reader) (hsteady : reader.Steady)
    (htext : reader.octets = wholeOnly.octets) :
    let run := ({ source := reader, sink := {}, options := ⟨.skip, .ignore⟩ } :
      Referee Reader Output.ReportList).run
    run.sent = [⟨1, .blackInCheck, some ⟨.rook, .white, ⟨7, 0⟩⟩⟩] ∧ run.outcome = .ok ⟨1, 0⟩ := by
  intro run
  have hpadded : wholeOnly.Padded := (keepsWhole_wholeOnly 0).padded
  have hcovers : run.Covers .ignore (Group.answers wholeOnly.played) wholeOnly.final :=
    (tolerant_of_willing (Output.ReportList.willing rfl rfl) reader).covers rfl rfl
      (GroupedText.stream hsteady htext hpadded)
  constructor
  · rw [hcovers.sent]
    decide +kernel
  · rw [hcovers.outcome]
    decide +kernel

/-- **A short board that blank lines do not make up to eight loses the next board.**  One row, a
blank line and a board in check: the row takes six rows of the board with it, what is left of the
board takes the board without pieces, and the run reports nothing and finds no end, where the
boards of eight rows alone make a report. -/
theorem not_leavesOutShort_unpadded :
    let run (text : GroupedText) : Run Output.ReportList :=
      ({ source := .ofOctets text.octets, sink := {}, options := ⟨.skip, .ignore⟩ } :
        Referee Reader Output.ReportList).run
    let text := shortFirst 0
    text.octets = (["k", "", "k.......", "........", "........", "........", "........", "........",
      "........", "R......K", "", "........", "........", "........", "........", "........",
      "........", "........", "........", "", "K", "", "k.......", "........", "........",
      "........", "........", "........", "........", "R......K"] : List String).flatMap
        (fun line => Text.octets (line ++ "\n")) ∧
    Willing ({} : Output.ReportList) ∧ text.KeepsWhole wholeOnly ∧
    (run wholeOnly).sent = [⟨1, .blackInCheck, some ⟨.rook, .white, ⟨7, 0⟩⟩⟩] ∧
    (run text).sent = [] ∧ (run text).outcome = .ok ⟨0, 4⟩ ∧
    ¬ (run text).LeavesOutShort text (run wholeOnly) := by
  intro run text
  have hsink : Willing ({} : Output.ReportList) := Output.ReportList.willing rfl rfl
  have hsteady : ∀ octets, (Reader.ofOctets octets).Steady := by
    intro octets failure h
    simp [Reader.ofOctets] at h
  have hoctets : ∀ octets, (Reader.ofOctets octets).octets = octets := by
    intro octets
    simp [Reader.ofOctets, Reader.octets]
  obtain ⟨hwhole, -⟩ := run_wholeOnly _ (hsteady _) (hoctets wholeOnly.octets)
  -- Each of the four blocks has a blank row or is short, and none ends the stream.
  have hblocks := GroupedText.blocks_rows (hoctets text.octets)
  have hgoing : ∀ a ∈ (blocks (text.groups.flatMap Group.allRows)).map Answer.rows,
      a.isFinal .ignore = false := by
    decide +kernel
  have hcovers : (run text).Covers .ignore _ _ :=
    (tolerant_of_willing hsink _).covers rfl rfl
      (Reader.stream_of_going (hsteady _) hblocks hgoing)
  have hnone : (run text).sent = [] := by
    rw [hcovers.sent]
    decide +kernel
  refine ⟨by decide +kernel, hsink, keepsWhole_wholeOnly 0, hwhole, hnone, ?_, ?_⟩
  · rw [hcovers.outcome]
    decide +kernel
  · intro h
    have hsame := h.dropsMore.sent
    rw [hnone, hwhole] at hsame
    exact absurd hsame (by simp)

/-- **A short board is dropped with the lines that make up its eight.**  It costs these lines
and one more board left out; reports, the end of the run, what is read and what the sink holds are
otherwise those of the run behind them.  In a text in groups, each of which the blank lines behind
it make up to eight, as far as it comes before the board without pieces and another group comes
behind it, the short groups are thus left out alone: the run shows what it shows over the whole
groups, but for the number of boards left out, to which each short group before the end adds one,
and stops at the same board without pieces.  Every run delivers its reports to the sink, and these
two leave it the same. -/
theorem run_drops_short (policy : MissingKing) (sink : κ) (hsink : Willing sink) :
    let run (reader : Reader) : Run κ :=
      ({ source := reader, sink, options := ⟨.skip, policy⟩ } : Referee Reader κ).run
    (∀ reader, (run reader).Delivers sink) ∧
    (∀ (r rest : Reader) (before shown behind : List String), r.Steady → rest.Steady →
      (∀ row ∈ before, isBlankRow row = true) → shown ≠ [] → shown.length < boardSize →
      (∀ row ∈ shown, isBlankRow row = false) →
      (∀ row, behind.head? = some row → isBlankRow row = true) →
      r.rows = before ++ (shown ++ behind) →
      rest.rows = behind.drop (boardSize - shown.length) →
      (run r).DropsMore 1 (run rest) ∧ (run r).sink = (run rest).sink ∧ readBy (run r).actions =
        .rows ((shown ++ behind).take boardSize) :: readBy (run rest).actions) ∧
    ∀ (r other : Reader) (text kept : GroupedText), r.Steady → other.Steady →
      r.octets = text.octets → other.octets = kept.octets →
      text.KeepsWhole kept → text.Padded →
      (run r).LeavesOutShort text (run other) ∧ (run r).sink = (run other).sink := by
  intro run
  have hdelivers : ∀ reader, (run reader).Delivers sink :=
    fun reader => (runsTo_run _).delivers hsink
  refine ⟨hdelivers, ?_, ?_⟩
  · intro r rest before shown behind hr hrest hbefore hne hshort hshown hbehind hrows hleft
    have hshows : (run r).DropsMore 1 (run rest) ∧ _ :=
      run_of_short hsink hr hrest hbefore hne hshown hshort hbehind hrows hleft
    exact ⟨hshows.1, hshows.1.sink_eq (hdelivers r) (hdelivers rest), hshows.2⟩
  · intro r other text kept hr hother htext hkept hkeeps hpadded
    have hleaves : (run r).LeavesOutShort text (run other) :=
      run_of_padded hsink hr hother htext hkept hpadded hkeeps
    exact ⟨hleaves, hleaves.dropsMore.sink_eq (hdelivers r) (hdelivers other)⟩

/-- With seven blank lines behind the first row, the run reports the check, which the sink keeps,
leaves out that row alone and stops at the board without pieces; what is behind it needs no blank
lines.  And a row alone takes another with it that comes too early. -/
theorem run_drops_short_rookCheck :
    let run (reader : Reader) : Run Output.ReportList :=
      ({ source := reader, sink := {}, options := ⟨.skip, .ignore⟩ } :
        Referee Reader Output.ReportList).run
    let octets := (shortFirst 6).octets
    let reader : Reader := [.chunk (octets.take 5), .interrupted, .chunk (octets.drop 5)]
    let report : Report := ⟨1, .blackInCheck, some ⟨.rook, .white, ⟨7, 0⟩⟩⟩
    (run reader).sent = [report] ∧ (run reader).sink.kept = #[report] ∧
    (run reader).outcome = .ok ⟨1, 1⟩ ∧
    (readBy (run reader).actions).getLast? = some (.rows Drawing.cleared) ∧
    readBy (run (.ofOctets (Text.octets "k\n\nK\n"))).actions =
      [.rows ["k", "", "K"], .exhausted] := by
  intro run octets reader report
  have hsink : Willing ({} : Output.ReportList) := Output.ReportList.willing rfl rfl
  obtain ⟨hdelivers, hshort, hpadded⟩ := run_drops_short .ignore ({} : Output.ReportList) hsink
  have hsteady : reader.Steady := by
    intro text h
    simp [reader] at h
  have hoctets : reader.octets = octets := by
    simp [reader, Reader.octets, List.take_append_drop]
  have hwholeSteady : (Reader.ofOctets wholeOnly.octets).Steady := by
    intro text h
    simp [Reader.ofOctets] at h
  have hwholeOctets : (Reader.ofOctets wholeOnly.octets).octets = wholeOnly.octets := by
    simp [Reader.ofOctets, Reader.octets]
  obtain ⟨hsent, houtcome⟩ := run_wholeOnly _ hwholeSteady hwholeOctets
  obtain ⟨hleaves, -⟩ := hpadded reader _ (shortFirst 6) wholeOnly hsteady hwholeSteady hoctets
    hwholeOctets (keepsWhole_wholeOnly 6) (by decide +kernel)
  have hone : (shortFirst 6).played.countP (fun g => !g.isWhole) = 1 := by decide +kernel
  have hfinal : (shortFirst 6).final = .rows Drawing.cleared := by decide +kernel
  have hlast : Reader.rows (.ofOctets (Text.octets "k\n\nK\n")) = [] ++ (["k"] ++ ["", "K"]) := by
    decide +kernel
  have hnothing : readBy (run []).actions = [.exhausted] := by decide +kernel
  have hcost := (hshort _ [] [] ["k"] ["", "K"] (by simp [Reader.Steady, Reader.ofOctets])
    (by simp [Reader.Steady]) (by simp) (by simp) (by decide) (by decide) (by decide) hlast rfl).2.2
  have hreports : (run reader).sent = [report] := hleaves.dropsMore.sent.trans hsent
  have hcounts : (run reader).outcome = .ok ⟨1, 1⟩ := by
    have h := hleaves.dropsMore.outcome
    rw [houtcome, hone] at h
    exact h
  refine ⟨hreports, ?_, hcounts, ?_, ?_⟩
  · obtain ⟨taken, htaken, hfinish⟩ := hdelivers reader
    rw [hreports] at htaken
    rw [hcounts] at hfinish
    obtain rfl := congrArg Prod.snd htaken
    exact (congrArg (fun left => left.2.kept) hfinish).symm
  · rw [hleaves.read, hfinal, List.getLast?_concat]
  · rw [hnothing] at hcost
    exact hcost

end Referee
end KingCheck
