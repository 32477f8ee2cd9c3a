import KingCheck.Board.Fen
import KingCheck.Log
import KingCheck.Report

/-!
# What the referee notes in the log

Four things are worth an entry: that both kings of a board are attacked, that a board
was judged, that one was left out, and that a run came to its end.
-/
namespace KingCheck

/-- How many boards were judged and how many left out. -/
structure Summary where
  games : Nat := 0
  skipped : Nat := 0
deriving DecidableEq

/-- Something the referee notes. -/
inductive Event where
  | bothAttacked (board : Board)
  | evaluated (report : Report)
  | skipped (board : Nat) (reason : BoardError)
  | finished (summary : Summary)
deriving DecidableEq

namespace Event

/-- The attacker of a report as the log shows it. -/
def attackerDetail : Option Attack → String
  | none => "None"
  | some a => "Some(" ++ a.detail ++ ")"

/-- The log entry of an event. -/
def entry (e : Event) : Log.Entry :=
  let origin := "check_core::game_loop"
  match e with
  | .bothAttacked board =>
    ⟨.warn, origin, "Both kings are attacked, reporting white", [("board", .text board.fen)]⟩
  | .evaluated report =>
    ⟨.debug, origin, "Evaluated board",
      [("game", .number report.game), ("verdict", .text report.verdict.title),
        ("attacker", .text (attackerDetail report.attacker))]⟩
  | .skipped board reason =>
    ⟨.warn, origin, "Skipping invalid board",
      [("board", .number board), ("error", .text reason.message)]⟩
  | .finished summary =>
    ⟨.info, origin, "Game loop finished",
      [("games", .number summary.games), ("skipped", .number summary.skipped)]⟩

end Event

/-- What judging a board is worth noting: once, if both kings are attacked. -/
def judgingEvents (b : Board) (judged : Except BoardError Judgement) : List Event :=
  match judged with
  | .ok j => if j.bothAttacked then [.bothAttacked b] else []
  | .error _ => []

end KingCheck
