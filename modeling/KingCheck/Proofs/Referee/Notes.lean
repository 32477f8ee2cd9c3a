import KingCheck.Proofs.Referee.Tally
import Mathlib.Data.List.Range

/-!
# Numbers in the log

Entries of one kind, which have a level and a message in common, give numbers: those that follow
one name.  The entries of judged boards give the numbers of games, and those of boards that were
left out the places of these boards among the drawings.
-/
namespace KingCheck

namespace Log

/-- The number that an entry of some kind gives under a name. -/
def Entry.number? (level : Level) (message name : String) (e : Entry) : Option Nat :=
  if e.level = level ∧ e.message = message then
    match e.fields.lookup name with
    | some (.number n) => some n
    | _ => none
  else none

/-- The numbers that the entries of some kind give under a name, in order. -/
def numbers (level : Level) (message name : String) (log : List Entry) : List Nat :=
  log.filterMap (Entry.number? level message name)

end Log

namespace Event

/-- The report of a board that was judged. -/
def report? : Event → Option Report
  | .evaluated report => some report
  | _ => none

/-- The number of a board that was left out. -/
def skipped? : Event → Option Nat
  | .skipped board _ => some board
  | _ => none

theorem number?_evaluated (e : Event) :
    e.entry.number? .debug "Evaluated board" "game" = e.report?.map Report.game := by
  cases e <;> rfl

theorem number?_skipped (e : Event) :
    e.entry.number? .warn "Skipping invalid board" "board" = e.skipped? := by
  cases e <;> rfl

/-- Only the end of a run has its message. -/
theorem message_entry_eq_iff (e : Event) :
    e.entry.message = "Game loop finished" ↔ ∃ summary, e = .finished summary := by
  cases e <;> simp [entry]

/-- The numbers of games in the log are those of the reports. -/
theorem numbers_evaluated (events : List Event) :
    Log.numbers .debug "Evaluated board" "game" (events.map entry) =
      (events.filterMap report?).map Report.game := by
  rw [Log.numbers, List.filterMap_map, List.map_filterMap]
  exact List.filterMap_congr fun e _ => e.number?_evaluated

/-- The numbers of boards in the log are those of the boards that were left out. -/
theorem numbers_skipped (events : List Event) :
    Log.numbers .warn "Skipping invalid board" "board" (events.map entry) =
      events.filterMap skipped? := by
  rw [Log.numbers, List.filterMap_map]
  exact List.filterMap_congr fun e _ => e.number?_skipped

end Event

section Places

variable {α : Type} {p : α → Bool} {l : List α} {a : α} {i : Nat}

/-- The places of the members that satisfy a condition, counted from 1. -/
def places (p : α → Bool) (l : List α) : List Nat :=
  ((l.zipIdx 1).filter fun member => p member.1).map Prod.snd

theorem mem_places_iff : i ∈ places p l ↔ ∃ a, (a, i) ∈ l.zipIdx 1 ∧ p a = true := by
  simp [places]

theorem pairwise_lt_places (p : α → Bool) (l : List α) : (places p l).Pairwise (· < ·) := by
  have hall : ((l.zipIdx 1).map Prod.snd).Pairwise (· < ·) := by
    rw [List.zipIdx_map_snd]
    exact List.pairwise_lt_range'
  exact hall.sublist (List.filter_sublist.map Prod.snd)

theorem places_concat (p : α → Bool) (l : List α) (a : α) :
    places p (l ++ [a]) = places p l ++ if p a then [l.length + 1] else [] := by
  cases h : p a <;> simp [places, List.zipIdx_append, h, Nat.add_comm]

theorem length_places (p : α → Bool) (l : List α) : (places p l).length = l.countP p := by
  rw [places, List.length_map, ← List.countP_eq_length_filter]
  conv_rhs => rw [← List.zipIdx_map_fst 1 l, List.countP_map]
  rfl

end Places

end KingCheck
