import KingCheck.Verdict
import KingCheck.Text.Json

/-!
# Reports

The verdict on one game with its number, and the two forms in which it is written: a
line of text, which tells the number and the verdict, and a JSON object, which tells
the attacker too.
-/
namespace KingCheck

open Text

/-- The forms in which a report is written. -/
inductive Format where
  | text
  | json
deriving DecidableEq

/-- The verdict on one judged game; games are numbered from 1. -/
structure Report where
  game : Nat
  verdict : Verdict
  attacker : Option Attack
deriving DecidableEq

namespace Square

/-- A square as an object. -/
def json (s : Square) : String :=
  Json.object [Json.member "row" s.row.val.repr, Json.member "col" s.col.val.repr]

/-- A square as the log shows it. -/
def detail (s : Square) : String :=
  "Square \x7b row: " ++ s.row.val.repr ++ ", col: " ++ s.col.val.repr ++ " \x7d"

end Square

namespace Attack

/-- An attack as an object. -/
def json (a : Attack) : String :=
  Json.object [Json.member "kind" (Json.string a.kind.name),
    Json.member "side" (Json.string a.side.name), Json.member "from" a.origin.json]

/-- An attack as the log shows it. -/
def detail (a : Attack) : String :=
  "Attack \x7b kind: " ++ a.kind.title ++ ", side: " ++ a.side.title ++ ", from: " ++
    a.origin.detail ++ " \x7d"

end Attack

namespace Report

variable (r : Report)

/-- The report as a line of text, without its end. -/
def text : String := "Game #" ++ r.game.repr ++ ": " ++ r.verdict.message ++ "."

/-- The report as an object. -/
def json : String :=
  Json.object [Json.member "game" r.game.repr,
    Json.member "verdict" (Json.string r.verdict.name),
    Json.member "attacker" ((r.attacker.map Attack.json).getD Json.null)]

end Report
end KingCheck
