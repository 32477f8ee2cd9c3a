import KingCheck.Text.GraphemeExtend
import KingCheck.Text.Unprintable

/-!
# Quoting

Characters and strings are quoted in messages so that every character shows.  The
usual control characters, the backslash and the quotes around the text are written with
a backslash; a character that would not show, or that would attach itself to the one
before it, is written as its code point in hexadecimal.
-/
namespace KingCheck.Text

/-- The mark around a quoted character. -/
def singleQuote : Char := '\x27'

/-- The mark around a quoted string. -/
def doubleQuote : Char := '\x22'

/-- The mark that opens an escape. -/
def backslash : Char := '\x5c'

/-- The code point in hexadecimal, without leading zeros, in an escape's braces. -/
def escapeCode (c : Char) : List Char :=
  [backslash, 'u', '\x7b'] ++ Nat.toDigits 16 c.toNat ++ ['\x7d']

/-- The Hangul fillers: they count as letters, but stand for a part of a syllable that is
left out and do not show. -/
def fillers : Ranges := [(0x115f, 0x1160), (0x3164, 0x3164), (0xffa0, 0xffa0)]

/-- The halfwidth sound marks of Katakana: they belong to the letter before them, but have
a width of their own and show beside it. -/
def halfwidthMarks : Ranges := [(0xff9e, 0xff9f)]

/-- The character does not show by itself. -/
def isHidden (c : Char) : Bool :=
  unprintable.contains c || fillers.contains c ||
    (graphemeExtend.contains c && !halfwidthMarks.contains c)

/-- A character as it stands between two marks `quote`. -/
def escape (quote c : Char) : List Char :=
  if c = '\x00' then [backslash, '0']
  else if c = '\t' then [backslash, 't']
  else if c = '\n' then [backslash, 'n']
  else if c = '\r' then [backslash, 'r']
  else if c = backslash ∨ c = quote then [backslash, c]
  else if isHidden c then escapeCode c
  else [c]

/-- A character in single quotes. -/
def quoteChar (c : Char) : String :=
  String.ofList (singleQuote :: escape singleQuote c ++ [singleQuote])

/-- A string in double quotes, in which single ones need no escape. -/
def quoteString (s : String) : String :=
  String.ofList (doubleQuote :: s.toList.flatMap (escape doubleQuote) ++ [doubleQuote])

end KingCheck.Text
