import KingCheck.Text.Utf8

/-!
# Reading lines

A reader delivers octets in chunks.  A read may also fail, or be interrupted, which
means only that it has to be made again.  A line is gathered across chunks up to its
newline; a failed read loses what was gathered, and the line after it starts with the
octets that follow.  Every line and every failure uses up some of the reader
(`size_readLine_lt`), so that reading ends.
-/
namespace KingCheck.Input

open Text (Octets)

/-- What one read from a device brings. -/
inductive Delivery where
  | chunk (bytes : Octets)
  | interrupted
  | failure (text : String)
deriving DecidableEq

/-- A device that is read: the deliveries it has left. -/
abbrev Reader := List Delivery

/-- The octet that ends a line. -/
def newline : UInt8 := 0x0a

namespace Reader

/-- The reader that delivers some octets at once. -/
def ofOctets (bytes : Octets) : Reader := [.chunk bytes]

/-- What a reader has left: its octets, and one for each delivery. -/
def size : Reader → Nat
  | [] => 0
  | .chunk bytes :: rest => bytes.length + 1 + size rest
  | .interrupted :: rest => 1 + size rest
  | .failure _ :: rest => 1 + size rest

/-- Read to the end of a line of which some octets are there already. -/
def readLineFrom (begun : Octets) : Reader → Except String (Option Octets) × Reader
  | [] => (.ok (if begun = [] then none else some begun), [])
  | .failure text :: rest => (.error text, rest)
  | .interrupted :: rest => readLineFrom begun rest
  | .chunk bytes :: rest =>
    match bytes.dropWhile (· != newline) with
    | [] => readLineFrom (begun ++ bytes) rest
    | _ :: after =>
      (.ok (some (begun ++ bytes.takeWhile (· != newline))), .chunk after :: rest)

/-- Read one line without its newline; the last line may lack one.  The answer is
nothing at the end. -/
def readLine (r : Reader) : Except String (Option Octets) × Reader := readLineFrom [] r

theorem size_readLineFrom_le (begun : Octets) (r : Reader) :
    (readLineFrom begun r).2.size ≤ r.size := by
  fun_induction readLineFrom begun r with
  | case1 => simp
  | case2 => simp [size]
  | case3 begun rest ih => simp only [size]; omega
  | case4 begun bytes rest h ih => simp only [size]; omega
  | case5 begun bytes rest octet after h =>
    have := (List.dropWhile_suffix (l := bytes) (· != newline)).length_le
    rw [h, List.length_cons] at this
    simp only [size]
    omega

/-- A line that is read, and a failure, use up more than was there already. -/
theorem size_readLineFrom_lt {begun : Octets} {r : Reader}
    (h : (readLineFrom begun r).1 ≠ .ok none) :
    (readLineFrom begun r).2.size < r.size + begun.length := by
  fun_induction readLineFrom begun r with
  | case1 begun =>
    by_cases hb : begun = []
    · simp [hb] at h
    · simp [size, List.length_pos_iff.2 hb]
  | case2 => simp only [size]; omega
  | case3 begun rest ih => have := ih h; simp only [size]; omega
  | case4 begun bytes rest hd ih =>
    have := ih h
    simp only [size, List.length_append] at this ⊢
    omega
  | case5 begun bytes rest octet after hd =>
    have := (List.dropWhile_suffix (l := bytes) (· != newline)).length_le
    rw [hd, List.length_cons] at this
    simp only [size]
    omega

theorem size_readLine_le (r : Reader) : r.readLine.2.size ≤ r.size :=
  size_readLineFrom_le [] r

/-- **Every line and every failed read uses up some of the reader.** -/
theorem size_readLine_lt {r : Reader} (h : r.readLine.1 ≠ .ok none) :
    r.readLine.2.size < r.size := by
  simpa [readLine] using size_readLineFrom_lt h

end Reader
end KingCheck.Input
