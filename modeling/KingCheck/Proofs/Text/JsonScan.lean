import KingCheck.Text.Json
import Mathlib.Data.List.Basic

/-!
# Reading compact JSON

A scanner takes a value off the front of a text and leaves what is behind it.  There is one
for each form of JSON that is written here, and each reads what is written of its value
(`Reads`), as long as no digit comes right behind, which would go on with a number.  Reading
an object asks for its members by name, in the order in which they are written.
-/
namespace KingCheck.Text.Json

/-- A scanner takes a value off the front of a text, and leaves the rest. -/
abbrev Scan (α : Type) := List Char → Option (α × List Char)

namespace Scan

variable {α β : Type}

/-- The text does not go on with a digit. -/
def Ends (rest : List Char) : Prop := ∀ c, rest.head? = some c → c.isDigit = false

/-- The scanner takes all of a text for a value, whatever comes behind it. -/
def Reads (scan : Scan α) (text : String) (a : α) : Prop :=
  ∀ rest, Ends rest → scan (text.toList ++ rest) = some (a, rest)

/-- Read a decimal number. -/
def number : Scan Nat := fun s =>
  match s.takeWhile Char.isDigit with
  | [] => none
  | digits => some (Nat.ofDigitChars 10 digits 0, s.dropWhile Char.isDigit)

/-- Read a word in quotes, the name of one of some values. -/
def word (values : List α) (name : α → String) : Scan α
  | '\x22' :: s =>
    match s.dropWhile (· != '\x22') with
    | [] => none
    | _ :: rest =>
      (values.find? fun a => (name a).toList == s.takeWhile (· != '\x22')).map fun a => (a, rest)
  | _ => none

/-- Read a value that may be absent. -/
def nullable (scan : Scan α) : Scan (Option α) := fun s =>
  match s.dropPrefix? null.toList with
  | some rest => some (none, rest)
  | none => (scan s).map fun (a, rest) => (some a, rest)

/-- Read a value behind its name. -/
def named (name : String) (scan : Scan α) : Scan α := fun s =>
  (s.dropPrefix? (string name ++ ":").toList).bind scan

/-- Read two values with a comma between them. -/
def both (first : Scan α) (second : Scan β) : Scan (α × β) := fun s =>
  match first s with
  | some (a, ',' :: rest) => (second rest).map fun (b, rest) => ((a, b), rest)
  | _ => none

/-- Read what stands in braces. -/
def braced (scan : Scan α) : Scan α
  | '\x7b' :: s =>
    match scan s with
    | some (a, '\x7d' :: rest) => some (a, rest)
    | _ => none
  | _ => none

/-- Read a value and make another of it, if that is possible. -/
def mapSome (f : α → Option β) (scan : Scan α) : Scan β := fun s =>
  (scan s).bind fun (a, rest) => (f a).map fun b => (b, rest)

/-- Read all of a text. -/
def whole (scan : Scan α) (text : String) : Option α :=
  match scan text.toList with
  | some (a, []) => some a
  | _ => none

theorem ends_nil : Ends [] := by
  intro c h
  simp at h

theorem ends_cons {c : Char} (h : c.isDigit = false) (rest : List Char) : Ends (c :: rest) := by
  intro d hd
  rw [← Option.some.inj hd]
  exact h

theorem dropPrefix?_append (p rest : List Char) : (p ++ rest).dropPrefix? p = some rest :=
  List.dropPrefix?_append_of_beq rest (beq_self_eq_true p)

/-- A number is read to its last digit. -/
theorem reads_number (n : Nat) : number.Reads n.repr n := by
  intro rest hrest
  have hdigits : ∀ c ∈ Nat.toDigits 10 n, c.isDigit = true :=
    fun c hc => Nat.isDigit_of_mem_toDigits (by decide) (by decide) hc
  have hend : rest.takeWhile Char.isDigit = [] ∧ rest.dropWhile Char.isDigit = rest := by
    cases rest with
    | nil => exact ⟨rfl, rfl⟩
    | cons c rest =>
      have hc := hrest c rfl
      exact ⟨by rw [List.takeWhile_cons, hc]; rfl, by rw [List.dropWhile_cons, hc]; rfl⟩
  rw [number, Nat.toList_repr, List.takeWhile_append_of_pos hdigits,
    List.dropWhile_append_of_pos hdigits, hend.1, hend.2, List.append_nil]
  split
  next hnil => exact absurd hnil Nat.toDigits_ne_nil
  next => rw [Nat.ofDigitChars_ten_toDigits]

/-- Names of values that can be told apart in quotes. -/
def Distinct (values : List α) (name : α → String) : Prop :=
  ∀ a ∈ values, '\x22' ∉ (name a).toList ∧ ∀ b ∈ values, name b = name a → b = a

/-- A word is read up to its closing quote, and stands for one value only. -/
theorem reads_word {values : List α} {name : α → String} {a : α} (h : Distinct values name)
    (ha : a ∈ values) : (word values name).Reads (string (name a)) a := by
  intro rest _
  have hopen : (string (name a)).toList ++ rest =
      '\x22' :: ((name a).toList ++ '\x22' :: rest) := by
    simp [string]
  obtain ⟨hquote, hname⟩ := h a ha
  have hinside : ∀ c ∈ (name a).toList, (c != '\x22') = true := by
    intro c hc
    rw [bne_iff_ne]
    rintro rfl
    exact hquote hc
  have hfind : (values.find? fun b => (name b).toList == (name a).toList) = some a := by
    cases hfound : values.find? fun b => (name b).toList == (name a).toList with
    | none => exact absurd (beq_self_eq_true _) (List.find?_eq_none.1 hfound a ha)
    | some b =>
      have hb : name b = name a := String.toList_inj.1 (by simpa using List.find?_some hfound)
      rw [hname b (List.mem_of_find?_eq_some hfound) hb]
  rw [hopen]
  simp only [word, List.dropWhile_append_of_pos hinside, List.takeWhile_append_of_pos hinside,
    List.dropWhile_cons, List.takeWhile_cons, bne_self_eq_false, Bool.false_eq_true, if_false,
    List.append_nil, hfind, Option.map_some]

namespace Reads

variable {scan : Scan α} {second : Scan β} {text : String} {a : α} {b : β}

/-- The absent value is read as such. -/
theorem null (scan : Scan α) : (nullable scan).Reads Json.null none := by
  intro rest _
  rw [nullable, dropPrefix?_append]

/-- A value is read as present, if it is not written like the absent one. -/
theorem present (h : scan.Reads text a) (hbrace : ∃ inner, text.toList = '\x7b' :: inner) :
    (nullable scan).Reads text (some a) := by
  intro rest hrest
  obtain ⟨inner, htext⟩ := hbrace
  have hnull : (text.toList ++ rest).dropPrefix? Json.null.toList = none := by
    rw [htext]
    rfl
  rw [nullable, hnull, h rest hrest]
  rfl

/-- A member is read behind its name. -/
theorem member (h : scan.Reads text a) (name : String) :
    (named name scan).Reads (Json.member name text) a := by
  intro rest hrest
  rw [named, Json.member, String.toList_append, List.append_assoc, dropPrefix?_append]
  exact h rest hrest

/-- A last member is the list of members. -/
theorem last (h : scan.Reads text a) : scan.Reads (",".intercalate [text]) a := h

/-- A member is read before the others. -/
theorem before {next : String} {others : List String} (h : scan.Reads text a)
    (hothers : second.Reads (",".intercalate (next :: others)) b) :
    (both scan second).Reads (",".intercalate (text :: next :: others)) (a, b) := by
  intro rest hrest
  have htext : (",".intercalate (text :: next :: others)).toList ++ rest =
      text.toList ++ ',' :: ((",".intercalate (next :: others)).toList ++ rest) := by
    simp only [String.toList_intercalate, List.map_cons, List.intercalate_cons_cons,
      List.append_assoc]
    rfl
  rw [htext, both, h _ (ends_cons (by decide) _)]
  simp only [hothers rest hrest, Option.map_some]

/-- An object is read with its braces. -/
theorem object {members : List String} (h : scan.Reads (",".intercalate members) a) :
    (braced scan).Reads (Json.object members) a := by
  intro rest _
  have htext : (Json.object members).toList ++ rest =
      '\x7b' :: ((",".intercalate members).toList ++ '\x7d' :: rest) := by
    simp [Json.object]
  rw [htext, braced, h _ (ends_cons (by decide) _)]
  rfl

/-- What is read may be made into another value. -/
theorem mapSome (h : scan.Reads text a) {f : α → Option β} (hf : f a = some b) :
    (Scan.mapSome f scan).Reads text b := by
  intro rest hrest
  rw [Scan.mapSome, h rest hrest, Option.bind_some]
  simp only [hf, Option.map_some]

/-- All of a text is read if the text is all there is. -/
theorem whole (h : scan.Reads text a) : scan.whole text = some a := by
  have hall := h [] ends_nil
  rw [List.append_nil] at hall
  rw [Scan.whole, hall]

end Reads

end Scan
end KingCheck.Text.Json
