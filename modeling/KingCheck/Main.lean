import KingCheck.Session.Transcript

/-!
# The command line

The program gathers what a session is given from the system and hands on what it
leaves.  The session itself is a pure function.
-/
namespace KingCheck

open Session (Environment Invocation)
open Input (Delivery Reader)
open Text (Octets)

/-- The variables that a session may ask for. -/
def variableNames : List String := "RUST_LOG" :: Setting.all.map Setting.variableName

/-- The part of the environment that a session may ask for. -/
def readEnvironment : IO Environment :=
  variableNames.filterMapM fun name => do
    return (← IO.getEnv name).map fun value => (name, value)

/-- The assignments in the nearest file for them, from the working directory upward. -/
def readAssignments : IO String := do
  let depth := (Text.pieces '/' (← IO.currentDir).toString.toList).length
  for height in List.range (depth + 1) do
    let path := String.join (List.replicate height "../") ++ ".env"
    if let some text ← try some <$> IO.FS.readFile path catch _ => pure none then
      return text
  return ""

/-- The system's words for an error, with its number. -/
def errorText : IO.Error → String
  | .noFileOrDirectory _ code details => details ++ " (os error " ++ code.toNat.repr ++ ")"
  | .permissionDenied _ code details => details ++ " (os error " ++ code.toNat.repr ++ ")"
  | .inappropriateType _ code details => details ++ " (os error " ++ code.toNat.repr ++ ")"
  | .invalidArgument _ code details => details ++ " (os error " ++ code.toNat.repr ++ ")"
  | error => toString error

/-- All that an open device delivers. -/
def readAll (handle : IO.FS.Handle) : IO Reader := do
  try
    return Reader.ofOctets (← handle.readBinToEnd).toList
  catch error =>
    return [.failure (errorText error)]

/-- All that standard input delivers. -/
def readStdin : IO Reader := do
  let stdin ← IO.getStdin
  let mut bytes := ByteArray.empty
  try
    repeat
      let chunk ← stdin.read 65536
      if chunk.isEmpty then break
      bytes := bytes ++ chunk
    return Reader.ofOctets bytes.toList
  catch error =>
    return [.failure (errorText error)]

/-- Open a path and read what is there. -/
def readPath (path : String) : IO (Except String Reader) := do
  try
    return .ok (← readAll (← IO.FS.Handle.mk path .read))
  catch error =>
    return .error (errorText error)

/-- What the session is given: standard input is read only if the settings ask for it. -/
def invocation (arguments : List String) : IO Invocation := do
  let environment ← readEnvironment
  let assignments ← readAssignments
  let given : Invocation :=
    { arguments, environment, assignments, stdin := [], openFile := fun _ => .error "" }
  match given.config with
  | .error _ => return given
  | .ok config =>
    match config.input with
    | none => return { given with stdin := ← readStdin }
    | some path =>
      let opened ← readPath path
      return { given with openFile := fun _ => opened }

end KingCheck

/-- Run one session on the system. -/
def main (arguments : List String) : IO UInt32 := do
  let transcript := (← KingCheck.invocation arguments).transcript
  let stdout ← IO.getStdout
  stdout.write ⟨transcript.stdout.toArray⟩
  stdout.flush
  (← IO.getStderr).putStr transcript.stderr
  return transcript.code.toUInt32
