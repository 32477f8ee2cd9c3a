import KingCheck.Proofs.Board.RoundTrip
import KingCheck.Proofs.Input.Opening

/-!
# Reads that fail

A failed read costs the call that it falls into, and no other.  The blocks that were whole
before it are handed out, the failure is answered once, and the next call reads what is behind it
as a reader of its own (`answers_around_failure`).  Two things are lost with the call: the rows it
had gathered, and the octets behind the last newline.  A reader goes from one failure to the
next, so this gives all answers of every reader (`exists_legs_answers`).
-/
namespace KingCheck.Input.Reader

open Text (Octets pieces pieces_flatMap)

variable {r steady mid rest : Reader} {text : String} {lines : List Octets}
  {taken : List String}

/-- The rows of the reader that are ended by a newline. -/
def endedRows (r : Reader) : List String :=
  (pieces newline (r.octets.rdropWhile (· != newline))).map rowOf

/-- The octets are the lines of the ended rows, and a line that is not ended. -/
theorem exists_endedRows_eq (r : Reader) : ∃ (lines : List Octets) (tail : Octets),
    (∀ line ∈ lines, newline ∉ line) ∧ newline ∉ tail ∧
      r.octets = lines.flatMap (· ++ [newline]) ++ tail ∧ r.endedRows = lines.map rowOf := by
  obtain ⟨lines, tail, hlines, htail, hoctets, hended⟩ := Text.exists_ended newline r.octets
  refine ⟨lines, tail, hlines, htail, hoctets, ?_⟩
  rw [endedRows, hended, pieces_flatMap hlines]

/-- A line that does not end before a failed read is lost with it. -/
theorem readLineFrom_of_failure (hsteady : steady.Steady) (hline : newline ∉ steady.octets)
    (begun : Octets) (text : String) (rest : Reader) :
    readLineFrom begun (steady ++ .failure text :: rest) = (.error text, rest) := by
  induction steady generalizing begun with
  | nil => rfl
  | cons delivery steady ih =>
    cases delivery with
    | failure other => exact absurd List.mem_cons_self (hsteady other)
    | interrupted => exact ih hsteady.tail hline begun
    | chunk bytes =>
      rw [octets, List.mem_append, not_or] at hline
      have hdrop : bytes.dropWhile (· != newline) = [] := by
        rw [List.dropWhile_eq_nil_iff]
        intro octet hoctet
        exact bne_iff_ne.2 fun heq => hline.1 (heq ▸ hoctet)
      rw [List.cons_append, readLineFrom, hdrop]
      exact ih hsteady.tail hline.2 (begun ++ bytes)

/-- A failed read is what filling a block answers, whatever it has taken. -/
theorem fillBlock_of_error (hread : r.readLine = (.error text, rest))
    (hlen : taken.length < boardSize) :
    fillBlock taken r = (.failed (.device text), rest) := by
  rw [fillBlock, if_neg (Nat.not_le.2 hlen)]
  split <;> simp_all

namespace Reads

/-- A block that is begun is lost if its lines are too few before a failed read. -/
theorem fillBlock_of_error (h : Reads lines r mid) (hread : mid.readLine = (.error text, rest))
    (htaken : taken ≠ []) (hshort : taken.length + lines.length < boardSize) :
    Reader.fillBlock taken r = (.failed (.device text), rest) := by
  induction h generalizing taken with
  | nil => exact Reader.fillBlock_of_error hread hshort
  | @cons line lines _ _ _ hline hlines ih =>
    rw [List.length_cons] at hshort
    rw [fillBlock_of_line hline (by omega), if_neg fun hnil => htaken hnil.1]
    apply ih hread (List.concat_ne_nil (rowOf line) taken)
    rw [List.length_append, List.length_singleton]
    omega

/-- Lines without a whole block are lost in the one call that comes to the failed read. -/
theorem nextBlock_of_error (h : Reads lines r mid) (hread : mid.readLine = (.error text, rest))
    (hshort : wholeBlocks (lines.map rowOf) = []) :
    r.nextBlock = (.failed (.device text), rest) := by
  rw [Reader.nextBlock]
  induction h with
  | nil => exact Reader.fillBlock_of_error hread (by decide)
  | @cons line lines _ _ _ hline hlines ih =>
    rw [fillBlock_of_line hline (by decide)]
    rw [wholeBlocks, List.map_cons] at hshort
    cases hblank : isBlankRow (rowOf line) with
    | true =>
      rw [blocks_cons_of_blank hblank] at hshort
      rw [if_pos (by simp)]
      exact ih hread hshort
    | false =>
      rw [blocks_cons_of_shown hblank, List.filter_eq_nil_iff] at hshort
      have hfirst := hshort _ List.mem_cons_self
      rw [decide_eq_true_iff, List.length_cons, List.length_take, List.length_map] at hfirst
      rw [if_neg (by simp), List.nil_append]
      apply hlines.fillBlock_of_error hread (List.cons_ne_nil _ _)
      rw [List.length_singleton]
      simp only [boardSize] at hfirst ⊢
      omega

end Reads

/-- A failed read stands between the whole blocks before it and the answers behind it. -/
theorem answers_append_failure (hsteady : steady.Steady) (text : String) (rest : Reader)
    (extra : Nat) :
    BoardSource.answers ((wholeBlocks steady.endedRows).length + (extra + 1))
        (steady ++ .failure text :: rest) =
      (wholeBlocks steady.endedRows).map .rows ++
        .failed (.device text) :: BoardSource.answers extra rest := by
  obtain ⟨lines, tail, hlines, htail, hoctets, hrows⟩ := steady.exists_endedRows_eq
  obtain ⟨left, hreads, hleft, hrest⟩ :=
    exists_reads hsteady hlines hoctets (.failure text :: rest)
  obtain ⟨mid, after, hafter, hshort, hanswers⟩ := hreads.answers
  -- Behind the ended lines only the line that is not ended comes before the failure.
  have hread : readLine (left ++ .failure text :: rest) = (.error text, rest) :=
    readLineFrom_of_failure hleft (hrest ▸ htail) [] text rest
  have hnext : Supply.next mid = (.failed (.device text), rest) :=
    hafter.nextBlock_of_error hread hshort
  rw [hrows, hanswers, BoardSource.answers, hnext]

/-- **A failed read loses the call that it falls into, and nothing behind it.**  The answers are
the whole blocks of the rows that were ended before, then the failure, and then those of the
reader behind it.  Nothing else that was there before the failure shows in any answer. -/
theorem answers_around_failure (hsteady : steady.Steady) (text : String) (rest : Reader) :
    (∀ extra,
      BoardSource.answers ((wholeBlocks steady.endedRows).length + (extra + 1))
          (steady ++ .failure text :: rest) =
        (wholeBlocks steady.endedRows).map .rows ++
          .failed (.device text) :: BoardSource.answers extra rest) ∧
    ∀ other : Reader, other.Steady →
      wholeBlocks other.endedRows = wholeBlocks steady.endedRows → ∀ n,
        BoardSource.answers n (other ++ .failure text :: rest) =
          BoardSource.answers n (steady ++ .failure text :: rest) := by
  refine ⟨answers_append_failure hsteady text rest, fun other hother hsame n => ?_⟩
  -- The two readers answer alike for longer than `n` calls, and so for `n`.
  have hboth := (answers_append_failure hother text rest n).trans
    (hsame ▸ (answers_append_failure hsteady text rest n).symm)
  have hcalls : (wholeBlocks steady.endedRows).length + (n + 1) =
      n + ((wholeBlocks steady.endedRows).length + 1) := by omega
  rw [hsame, hcalls] at hboth
  have htake := congrArg (List.take n) hboth
  rwa [BoardSource.take_answers, BoardSource.take_answers] at htake

/-- A board, three rows of another and the beginning of a fourth, in deliveries that cut a row in
two. -/
def torn : Reader :=
  let text := ("" :: Drawing.twoKings ++ "k......." :: ".......K" :: ["Q......."]).flatMap
    (fun row => Text.octets row ++ [newline]) ++ Text.octets "...R"
  [.chunk (text.take 21), .interrupted, .chunk (text.drop 21)]

/-- The rows behind the board are lost with the failure.  What comes behind it is framed anew, to
the next failure and behind that; and without the lost rows it is all the same. -/
theorem answers_around_failure_torn :
    let text := Drawing.twoKings.flatMap fun row => Text.octets row ++ [newline]
    let rest : Reader :=
      [.chunk (Text.octets "....\n"), .failure "again", .chunk text, .chunk (Text.octets "k")]
    torn.Steady ∧
    BoardSource.answers 6 (torn ++ .failure "gone" :: rest) =
      [.rows Drawing.twoKings, .failed (.device "gone"), .failed (.device "again"),
        .rows Drawing.twoKings, .rows ["k"], .exhausted] ∧
    ∀ n, BoardSource.answers n (.chunk text :: .failure "gone" :: rest) =
      BoardSource.answers n (torn ++ .failure "gone" :: rest) := by
  intro text rest
  have hsteady : torn.Steady := fun _ h => by simp [torn] at h
  have hwhole : wholeBlocks torn.endedRows = [Drawing.twoKings] := by decide +kernel
  obtain ⟨hanswers, hsame⟩ := answers_around_failure hsteady "gone" rest
  refine ⟨hsteady, ?_, ?_⟩
  · have hfirst := hanswers 4
    rw [hwhole] at hfirst
    refine hfirst.trans ?_
    decide +kernel
  · exact hsame [.chunk text] (fun _ h => by simp at h) (by rw [hwhole]; decide +kernel)

/-- The deliveries of a reader up to a failed read, with that read. -/
structure Leg where
  before : Reader
  steady : before.Steady
  text : String

namespace Leg

def deliveries (leg : Leg) : Reader := leg.before ++ [.failure leg.text]

/-- What is answered up to the failed read. -/
def answers (leg : Leg) : List Answer :=
  (wholeBlocks leg.before.endedRows).map .rows ++ [.failed (.device leg.text)]

end Leg

/-- **Every leg has its answers, whatever the others are.** -/
theorem answers_legs (legs : List Leg) (rest : Reader) (extra : Nat) :
    BoardSource.answers ((legs.flatMap Leg.answers).length + extra)
        (legs.flatMap Leg.deliveries ++ rest) =
      legs.flatMap Leg.answers ++ BoardSource.answers extra rest := by
  induction legs with
  | nil => simp
  | cons leg legs ih =>
    have hcount : ((leg :: legs).flatMap Leg.answers).length + extra =
        (wholeBlocks leg.before.endedRows).length +
          ((legs.flatMap Leg.answers).length + extra + 1) := by
      simp only [List.flatMap_cons, List.length_append, Leg.answers, List.length_map,
        List.length_singleton]
      omega
    have hdeliveries : (leg :: legs).flatMap Leg.deliveries ++ rest =
        leg.before ++ .failure leg.text :: (legs.flatMap Leg.deliveries ++ rest) := by
      simp only [List.flatMap_cons, Leg.deliveries, List.append_assoc, List.cons_append,
        List.nil_append]
    rw [hcount, hdeliveries, answers_append_failure leg.steady, ih, List.flatMap_cons, Leg.answers]
    simp only [List.append_assoc, List.cons_append, List.nil_append]

/-- Every reader is some legs and a rest that does not fail. -/
theorem exists_legs (r : Reader) : ∃ (legs : List Leg) (last : Reader),
    r = legs.flatMap Leg.deliveries ++ last ∧ last.Steady := by
  induction r with
  | nil => exact ⟨[], [], rfl, fun _ h => by simp at h⟩
  | cons delivery r ih =>
    obtain ⟨legs, last, rfl, hlast⟩ := ih
    by_cases hfailure : ∃ text, delivery = .failure text
    · obtain ⟨text, rfl⟩ := hfailure
      exact ⟨⟨[], fun _ h => by simp at h, text⟩ :: legs, last, rfl, hlast⟩
    · have hfirst : ∀ text, delivery ≠ .failure text := fun text h => hfailure ⟨text, h⟩
      cases legs with
      | nil => exact ⟨[], delivery :: last, rfl, hlast.cons hfirst⟩
      | cons leg legs =>
        exact ⟨⟨delivery :: leg.before, leg.steady.cons hfirst, leg.text⟩ :: legs, last, rfl, hlast⟩

/-- **The answers of any reader** are those of its legs, then the blocks of what is left, and then
none for ever. -/
theorem exists_legs_answers (r : Reader) : ∃ (legs : List Leg) (last : Reader),
    r = legs.flatMap Leg.deliveries ++ last ∧ last.Steady ∧ ∀ extra,
      BoardSource.answers
          ((legs.flatMap Leg.answers).length + ((blocks last.rows).length + extra)) r =
        legs.flatMap Leg.answers ++
          ((blocks last.rows).map .rows ++ List.replicate extra .exhausted) := by
  obtain ⟨legs, last, rfl, hlast⟩ := exists_legs r
  refine ⟨legs, last, rfl, hlast, fun extra => ?_⟩
  rw [answers_legs, answers_of_steady hlast]

end KingCheck.Input.Reader
