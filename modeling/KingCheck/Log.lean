/-!
# The log

An entry has a level, the part of the program that it comes from, a message and named
values.  A threshold decides which entries are shown.
-/
namespace KingCheck.Log

/-- How much an entry matters, most first. -/
inductive Level where
  | error
  | warn
  | info
  | debug
  | trace
deriving DecidableEq

/-- The place of a level in the order of importance. -/
def Level.rank : Level → Nat
  | .error => 1
  | .warn => 2
  | .info => 3
  | .debug => 4
  | .trace => 5

/-- The word that starts an entry's line. -/
def Level.name : Level → String
  | .error => "ERROR"
  | .warn => "WARN"
  | .info => "INFO"
  | .debug => "DEBUG"
  | .trace => "TRACE"

/-- A named value is a number or a text. -/
inductive Value where
  | number (n : Nat)
  | text (s : String)
deriving DecidableEq

/-- A value as a line shows it. -/
def Value.render : Value → String
  | .number n => n.repr
  | .text s => s

/-- One entry. -/
structure Entry where
  level : Level
  origin : String
  message : String
  fields : List (String × Value)
deriving DecidableEq

/-- The line of an entry: its values follow the message. -/
def Entry.line (e : Entry) : String :=
  e.level.name ++ " " ++ e.origin ++ ": " ++
    " ".intercalate (e.message :: e.fields.map fun field => field.1 ++ "=" ++ field.2.render)

/-- The least important level shown; nothing at all is shown without one. -/
abbrev Threshold := Option Level

/-- The threshold lets the entry through. -/
def Threshold.shows (threshold : Threshold) (e : Entry) : Bool :=
  match threshold with
  | none => false
  | some level => e.level.rank ≤ level.rank

/-- The words for thresholds. -/
def Threshold.words : List (String × Threshold) :=
  [("off", none), ("", some .error), ("error", some .error), ("warn", some .warn),
    ("info", some .info), ("debug", some .debug), ("trace", some .trace)]

/-- The threshold that a setting asks for, in letters of either case: warnings and more
if there is no setting, and nothing if its word is unknown. -/
def Threshold.ofSetting : Option String → Threshold
  | none => some .warn
  | some word => (Threshold.words.lookup word.toLower).getD none

end KingCheck.Log
