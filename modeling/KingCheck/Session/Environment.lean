import KingCheck.Text.Blank
import KingCheck.Text.Lines

/-!
# The environment

The variables of the process are completed by a file of assignments, one a line.  What
the process has set stays, and of several assignments to one name the first counts.
-/
namespace KingCheck.Session

/-- Named values; of several for one name the first counts. -/
abbrev Environment := List (String × String)

namespace Environment

/-- The character may stand in a name. -/
def isNameChar (c : Char) : Bool := c.isAlphanum || c == '_' || c == '.'

/-- The characters form a name: they start with a letter or an underscore. -/
def isName (cs : List Char) : Bool :=
  match cs with
  | [] => false
  | c :: _ => (c.isAlpha || c == '_') && cs.all isNameChar

/-- The character ends a value. -/
def isGap (c : Char) : Bool := c == ' ' || c == '\t'

/-- The value written after the equals sign: it ends at a gap, which only a comment may
follow. -/
def value? (cs : List Char) : Option (List Char) :=
  match (cs.dropWhile fun c => !isGap c).dropWhile isGap with
  | [] => some (cs.takeWhile fun c => !isGap c)
  | c :: _ => if c = '#' then some (cs.takeWhile fun c => !isGap c) else none

/-- What one line says. -/
inductive Line where
  | nothing
  | assignment (name value : String)
  | malformed
deriving DecidableEq

/-- Read one line; blank lines and comments say nothing. -/
def Line.ofChars (line : List Char) : Line :=
  match Text.trim line with
  | [] => .nothing
  | '#' :: _ => .nothing
  | cs =>
    let name := Text.trim (cs.takeWhile (· != '='))
    match cs.dropWhile (· != '='), isName name with
    | _ :: rest, true =>
      match Text.trim rest with
      | '#' :: _ => .assignment (String.ofList name) ""
      | rest =>
        match value? rest with
        | some value => .assignment (String.ofList name) (String.ofList value)
        | none => .malformed
    | _, _ => .malformed

/-- The assignments up to the first malformed line. -/
def ofLines : List (List Char) → Environment
  | [] => []
  | line :: rest =>
    match Line.ofChars line with
    | .nothing => ofLines rest
    | .assignment name value => (name, value) :: ofLines rest
    | .malformed => []

/-- The assignments that a file makes. -/
def ofText (s : String) : Environment := ofLines (Text.pieces '\n' s.toList)

/-- The environment completed by the assignments of a file. -/
def completedBy (env : Environment) (file : String) : Environment := env ++ ofText file

end Environment
end KingCheck.Session
