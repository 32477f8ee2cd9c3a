import KingCheck.Config
import KingCheck.Referee.Run
import KingCheck.Session.Environment

/-!
# Sessions

A session is one call of the program from the command line.  It completes the
environment, loads the settings, opens the input and runs the referee; what it leaves
is a transcript of both outputs and an exit code.  Only the reports go to standard
output.  The log goes to standard error, where an error that ends the session follows
it.
-/
namespace KingCheck.Session

open Text (Octets)
open Input (Reader)
open Output (LineSink)

/-- What a session is given. -/
structure Invocation where
  arguments : List String
  environment : Environment
  /-- The file of assignments that completes the environment. -/
  assignments : String
  stdin : Reader
  /-- What becomes of opening a path. -/
  openFile : String → Except String Reader

/-- What a session leaves. -/
structure Transcript where
  code : Nat
  stdout : Octets
  stderr : String
deriving DecidableEq

/-- An error that ends a session: what happened, and what lies behind it. -/
structure Fatal where
  message : String
  cause : Option String := none
deriving DecidableEq

namespace Fatal

/-- A path that cannot be opened. -/
def unopened (path text : String) : Fatal := ⟨"Failed to open " ++ path, some text⟩

/-- A failed run. -/
def ofFailure (f : Failure) : Fatal := ⟨f.message, some f.cause⟩

/-- The error as it is shown, with the cause set off. -/
def text (f : Fatal) : String :=
  "Error: " ++ f.message ++ "\n" ++
    match f.cause with
    | none => ""
    | some cause => "\nCaused by:\n    " ++ cause ++ "\n"

end Fatal

/-- The entry that shows the settings. -/
def loadedEntry (config : Config) : Log.Entry :=
  ⟨.info, "check_the_check", "Configuration loaded", [("config", .text config.detail)]⟩

/-- The entry that ends a successful session. -/
def doneEntry (summary : Summary) : Log.Entry :=
  ⟨.info, "check_the_check", "Done",
    [("games", .number summary.games), ("skipped", .number summary.skipped)]⟩

namespace Invocation

variable (inv : Invocation)

/-- The value of a variable. -/
def lookup (name : String) : Option String :=
  (inv.environment.completedBy inv.assignments).lookup name

/-- The least important level that the log shows. -/
def threshold : Log.Threshold := .ofSetting (inv.lookup "RUST_LOG")

/-- The settings of the session. -/
def config : Except ConfigError Config := Config.load inv.lookup inv.arguments

/-- The input that the settings name; standard input if they name none. -/
def reader (config : Config) : Except Fatal Reader :=
  match config.input with
  | none => .ok inv.stdin
  | some path => (inv.openFile path).mapError (Fatal.unopened path)

/-- The lines of the log. -/
def logText (entries : List Log.Entry) : String :=
  String.join ((entries.filter inv.threshold.shows).map fun e => e.line ++ "\n")

/-- A session that ends with an error. -/
def fail (stdout : Octets) (entries : List Log.Entry) (fatal : Fatal) : Transcript :=
  ⟨1, stdout, inv.logText entries ++ fatal.text⟩

/-- The referee's run on an input. -/
def refereeRun (config : Config) (reader : Reader) : Run LineSink :=
  Referee.run { source := reader, sink := { format := config.output }, options := config.options }

/-- The session from start to end. -/
def transcript : Transcript :=
  match inv.config with
  | .error e => inv.fail [] [] ⟨e.message, none⟩
  | .ok config =>
    match inv.reader config with
    | .error fatal => inv.fail [] [loadedEntry config] fatal
    | .ok reader =>
      let run := refereeRun config reader
      let stdout := run.sink.writer.written.toList
      let entries := loadedEntry config :: run.events.map Event.entry
      match run.outcome with
      | .ok summary => ⟨0, stdout, inv.logText (entries ++ [doneEntry summary])⟩
      | .error failure => inv.fail stdout entries (.ofFailure failure)

end Invocation
end KingCheck.Session
