import KingCheck.Report
import KingCheck.Text.Blank
import KingCheck.Text.Quoted

/-!
# Configuration

Four settings can each be given as an environment variable and as a flag on the command
line; flags come later and override.  A word is compared without the white space around
it and in small letters, but an error shows it as it was given.
-/
namespace KingCheck

/-- What can be set. -/
inductive Setting where
  | input
  | onMalformed
  | missingKing
  | output
deriving DecidableEq

namespace Setting

/-- The settings in the order in which their variables are read. -/
def all : List Setting := [.input, .onMalformed, .missingKing, .output]

/-- The environment variable of a setting. -/
def variableName : Setting → String
  | .input => "CHECK_INPUT"
  | .onMalformed => "CHECK_ON_MALFORMED"
  | .missingKing => "CHECK_MISSING_KING"
  | .output => "CHECK_OUTPUT"

/-- The flag of a setting. -/
def flag : Setting → String
  | .input => "--input"
  | .onMalformed => "--on-malformed"
  | .missingKing => "--missing-king"
  | .output => "--output"

/-- The setting that a flag belongs to. -/
def ofFlag? (word : String) : Option Setting := all.find? fun s => s.flag == word

theorem mem_all (s : Setting) : s ∈ all := by
  cases s <;> decide

@[simp] theorem ofFlag?_flag (s : Setting) : ofFlag? s.flag = some s := by
  cases s <;> decide

end Setting

/-- The words for what becomes of a refused board. -/
def OnMalformed.words : List (String × OnMalformed) := [("abort", .abort), ("skip", .skip)]

/-- The words for what becomes of a missing king. -/
def MissingKing.words : List (String × MissingKing) := [("ignore", .ignore), ("error", .refuse)]

/-- The words for the form of the reports. -/
def Format.words : List (String × Format) := [("text", .text), ("json", .json)]

/-- Why the settings are refused. -/
inductive ConfigError where
  /-- The value given under a key is not one of the words expected there. -/
  | invalidValue (key value : String) (expected : List String)
  /-- The last flag has no value. -/
  | missingValue (flag : String)
  /-- This is not a flag. -/
  | unknownArgument (word : String)
deriving DecidableEq

/-- The wording of a refusal. -/
def ConfigError.message : ConfigError → String
  | .invalidValue key value expected =>
    "Invalid value " ++ Text.quoteString value ++ " for " ++ key ++ ", expected one of: " ++
      ", ".intercalate expected
  | .missingValue flag => "Missing value after " ++ flag
  | .unknownArgument word => "Unknown argument: " ++ word

/-- The word that a value stands for: without white space around it, in small letters. -/
def normalWord (value : String) : String :=
  String.ofList ((Text.trim value.toList).map Char.toLower)

/-- What a value means, where one of some words is expected. -/
def readWord {α : Type} (words : List (String × α)) (key value : String) :
    Except ConfigError α :=
  match words.lookup (normalWord value) with
  | some meaning => .ok meaning
  | none => .error (.invalidValue key value (words.map Prod.fst))

/-- The settings of a run. -/
structure Config where
  /-- The file to read; standard input if there is none. -/
  input : Option String := none
  output : Format := .text
  options : Options := {}
deriving DecidableEq

namespace Config

/-- Change one setting to a value given under a key. -/
def set (c : Config) (s : Setting) (key value : String) : Except ConfigError Config :=
  match s with
  | .input => .ok { c with input := some value }
  | .onMalformed =>
    (readWord OnMalformed.words key value).map fun onMalformed =>
      { c with options := { c.options with onMalformed } }
  | .missingKing =>
    (readWord MissingKing.words key value).map fun missingKing =>
      { c with options := { c.options with missingKing } }
  | .output => (readWord Format.words key value).map fun output => { c with output }

/-- Change the given settings to the values of their variables, where they have one. -/
def withVariables (lookup : String → Option String) :
    Config → List Setting → Except ConfigError Config
  | c, [] => .ok c
  | c, s :: rest =>
    match lookup s.variableName with
    | none => c.withVariables lookup rest
    | some value =>
      match c.set s s.variableName value with
      | .ok c => c.withVariables lookup rest
      | .error e => .error e

/-- Change settings as the arguments say, which are flags with the value after them; a
value may look like a flag. -/
def withArguments : Config → List String → Except ConfigError Config
  | c, [] => .ok c
  | c, word :: rest =>
    match Setting.ofFlag? word, rest with
    | none, _ => .error (.unknownArgument word)
    | some _, [] => .error (.missingValue word)
    | some s, value :: rest =>
      match c.set s word value with
      | .ok c => c.withArguments rest
      | .error e => .error e

/-- The settings that the environment and then the arguments ask for. -/
def load (lookup : String → Option String) (arguments : List String) :
    Except ConfigError Config :=
  match ({} : Config).withVariables lookup Setting.all with
  | .ok c => c.withArguments arguments
  | .error e => .error e

/-- The settings as the log shows them. -/
def detail (c : Config) : String :=
  let input :=
    match c.input with
    | none => "None"
    | some path => "Some(" ++ Text.quoteString path ++ ")"
  let output :=
    match c.output with
    | .text => "Text"
    | .json => "Json"
  let onMalformed :=
    match c.options.onMalformed with
    | .abort => "Abort"
    | .skip => "Skip"
  let missingKing :=
    match c.options.missingKing with
    | .ignore => "Ignore"
    | .refuse => "Error"
  "RunnerConfig \x7b input: " ++ input ++ ", output: " ++ output ++
    ", options: LoopOptions \x7b on_malformed: " ++ onMalformed ++
    ", missing_king: " ++ missingKing ++ " \x7d \x7d"

end Config
end KingCheck
