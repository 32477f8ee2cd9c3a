import KingCheck.Text.Utf8

/-!
# Writers

A writer keeps the octets it took.  One with limited room takes what fits and then
fails, so that a failed write leaves exactly the octets there was room for.
-/
namespace KingCheck.Output

open Text (Octets)

/-- What stops a writer: the number of octets it still takes, and its words when it is
asked for more. -/
structure Limit where
  room : Nat
  refusal : String
deriving DecidableEq

/-- A device that is written. -/
structure Writer where
  written : Array UInt8 := #[]
  limit : Option Limit := none
  flushFailure : Option String := none
deriving DecidableEq

namespace Writer

variable (w : Writer)

/-- Write some octets, or as many of them as there is room for. -/
def write (bytes : Octets) : Except String Unit × Writer :=
  match w.limit with
  | none => (.ok (), { w with written := w.written ++ bytes })
  | some limit =>
    if bytes.length ≤ limit.room then
      (.ok (), { w with
        written := w.written ++ bytes
        limit := some { limit with room := limit.room - bytes.length } })
    else
      (.error limit.refusal, { w with
        written := w.written ++ bytes.take limit.room
        limit := some { limit with room := 0 } })

/-- Hand everything on; what is written does not change. -/
def flush : Except String Unit :=
  match w.flushFailure with
  | none => .ok ()
  | some text => .error text

/-- Without a limit every write succeeds. -/
theorem write_of_limit_eq_none (h : w.limit = none) (bytes : Octets) :
    w.write bytes = (.ok (), { w with written := w.written ++ bytes }) := by
  simp [write, h]

end Writer
end KingCheck.Output
