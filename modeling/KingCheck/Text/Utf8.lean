/-!
# UTF-8

Text is written as UTF-8 and read back one octet at a time.  A lead octet says how
many more belong to its character and which values the next one may take, so that no
code point has two encodings and no surrogate has any.  Octets that belong to no
character are not lost: each longest beginning of a character that goes on wrongly, and
each octet that can begin none, reads as one replacement character.
-/
namespace KingCheck.Text

/-- Octets in order. -/
abbrev Octets := List UInt8

/-- What stands for octets that encode nothing. -/
def replacement : Char := '\ufffd'

/-- Where a reader stands between two octets. -/
inductive Utf8State where
  /-- Between characters. -/
  | ready
  /-- Inside a character: `owed + 1` octets are still to come, the next one between `low`
  and `high`, and `value` holds the bits so far. -/
  | inside (owed low high value : Nat)
deriving DecidableEq

namespace Utf8State

/-- Read the first octet of a character: what it yields by itself, and what it leaves
open. -/
def lead (n : Nat) : List Char × Utf8State :=
  if n < 0x80 then ([Char.ofNat n], ready)
  else if n < 0xc2 then ([replacement], ready)
  else if n < 0xe0 then ([], inside 0 0x80 0xbf (n - 0xc0))
  else if n = 0xe0 then ([], inside 1 0xa0 0xbf 0)
  else if n = 0xed then ([], inside 1 0x80 0x9f 0xd)
  else if n < 0xf0 then ([], inside 1 0x80 0xbf (n - 0xe0))
  else if n = 0xf0 then ([], inside 2 0x90 0xbf 0)
  else if n < 0xf4 then ([], inside 2 0x80 0xbf (n - 0xf0))
  else if n = 0xf4 then ([], inside 2 0x80 0x8f 4)
  else ([replacement], ready)

/-- Read one octet.  An octet that cannot go on ends the open character as a
replacement and is read again as a first one. -/
def read (state : Utf8State) (n : Nat) : List Char × Utf8State :=
  match state with
  | ready => lead n
  | inside owed low high value =>
    if low ≤ n ∧ n ≤ high then
      let value := value * 0x40 + (n - 0x80)
      match owed with
      | 0 => ([Char.ofNat value], ready)
      | owed + 1 => ([], inside owed 0x80 0xbf value)
    else
      (replacement :: (lead n).1, (lead n).2)

/-- What an unfinished character reads as when the octets end. -/
def flush : Utf8State → List Char
  | ready => []
  | inside .. => [replacement]

/-- Read all octets from a given state on. -/
def decode (state : Utf8State) : Octets → List Char
  | [] => state.flush
  | b :: bs => (state.read b.toNat).1 ++ decode (state.read b.toNat).2 bs

end Utf8State

/-- The characters that the octets encode, with replacements for what encodes none. -/
def decode (bs : Octets) : List Char := Utf8State.ready.decode bs

/-- The octets that encode the characters. -/
def encode (cs : List Char) : Octets := cs.flatMap String.utf8EncodeChar

/-- The octets that encode a string. -/
def octets (s : String) : Octets := encode s.toList

/-- The string that the octets encode. -/
def ofOctets (bs : Octets) : String := String.ofList (decode bs)

@[simp] theorem decode_nil : decode [] = [] := rfl

/-- An octet below 0x80 is a character by itself. -/
theorem decode_cons_of_lt {b : UInt8} (h : b.toNat < 0x80) (bs : Octets) :
    decode (b :: bs) = Char.ofNat b.toNat :: decode bs := by
  simp [decode, Utf8State.decode, Utf8State.read, Utf8State.lead, h]

@[simp] theorem encode_nil : encode [] = [] := rfl

@[simp] theorem encode_append (s t : List Char) : encode (s ++ t) = encode s ++ encode t := by
  simp [encode]

end KingCheck.Text
