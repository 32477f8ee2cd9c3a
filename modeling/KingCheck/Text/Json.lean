/-!
# Compact JSON

The few forms of JSON that a report needs, without any space.  Names and strings are
words of this library's own, in which no character needs an escape.
-/
namespace KingCheck.Text.Json

/-- A word in quotes. -/
def string (word : String) : String := "\x22" ++ word ++ "\x22"

/-- The absent value. -/
def null : String := "null"

/-- A named value inside an object. -/
def member (name value : String) : String := string name ++ ":" ++ value

/-- An object of members, in order. -/
def object (members : List String) : String := "\x7b" ++ ",".intercalate members ++ "\x7d"

end KingCheck.Text.Json
