import KingCheck.Proofs.Text.Blank
import KingCheck.Proofs.Text.Lines
import KingCheck.Session.Environment
import KingCheck.Text.Quoted

/-!
# Plain assignments

A file of plain assignments says what its lines say: each is a name, an equals sign and a value in
which nothing has a meaning of its own.  So a variable that the process has not set has the value
that the file gives it first.
-/
namespace KingCheck.Session.Environment

open Text (NoBlank)

/-- The characters that quote, that stand for something else, or that no variable holds. -/
def special : List Char := [Text.singleQuote, Text.doubleQuote, Text.backslash, '$', '\x00']

/-- The name and the value can be written as they are: the value has no blanks, does not look like
a comment, and has no special characters. -/
structure IsPlain (name value : String) : Prop where
  named : isName name.toList = true
  noBlank : NoBlank value.toList
  noComment : value.toList.head? ≠ some '#'
  noQuote : ∀ c ∈ value.toList, c ∉ special

instance (name value : String) : Decidable (IsPlain name value) :=
  decidable_of_iff
    (isName name.toList = true ∧ NoBlank value.toList ∧ value.toList.head? ≠ some '#' ∧
      value.toList.all (· ∉ special) = true)
    ⟨fun ⟨h₁, h₂, h₃, h₄⟩ => ⟨h₁, h₂, h₃, by simpa using h₄⟩,
      fun ⟨h₁, h₂, h₃, h₄⟩ => ⟨h₁, h₂, h₃, by simpa using h₄⟩⟩

/-- The line that assigns a value to a name. -/
def assignmentLine (assignment : String × String) : List Char :=
  assignment.1.toList ++ '=' :: assignment.2.toList

/-- The text consists of plain assignments, one a line; the last line may lack its end. -/
structure Assigns (text : String) (assignments : List (String × String)) : Prop where
  plain : ∀ assignment ∈ assignments, IsPlain assignment.1 assignment.2
  lines : Text.pieces '\n' text.toList = assignments.map assignmentLine

instance (text : String) (assignments : List (String × String)) :
    Decidable (Assigns text assignments) :=
  decidable_of_iff
    ((∀ assignment ∈ assignments, IsPlain assignment.1 assignment.2) ∧
      Text.pieces '\n' text.toList = assignments.map assignmentLine)
    ⟨fun ⟨h₁, h₂⟩ => ⟨h₁, h₂⟩, fun ⟨h₁, h₂⟩ => ⟨h₁, h₂⟩⟩

/-- A character of a name is neither blank nor an equals sign. -/
theorem isBlank_of_isNameChar {c : Char} (h : isNameChar c = true) :
    Text.isBlank c = false ∧ c ≠ '=' := by
  have hrange : 46 ≤ c.toNat ∧ c.toNat ≤ 122 := by
    rw [isNameChar] at h
    delta Char.isAlphanum Char.isAlpha Char.isUpper Char.isLower Char.isDigit at h
    simp only [Bool.or_eq_true, Bool.and_eq_true, decide_eq_true_eq, beq_iff_eq, ge_iff_le,
      UInt32.le_iff_toNat_le] at h
    rcases h with (((h | h) | h) | rfl) | rfl
    · exact ⟨Nat.le_trans (by decide) h.1, Nat.le_trans h.2 (by decide)⟩
    · exact ⟨Nat.le_trans (by decide) h.1, h.2⟩
    · exact ⟨Nat.le_trans (by decide) h.1, Nat.le_trans h.2 (by decide)⟩
    · decide
    · decide
  constructor
  · rw [Bool.eq_false_iff, ne_eq]
    simp only [Text.isBlank, Text.Ranges.contains_iff, Text.whiteSpace, List.mem_cons,
      List.not_mem_nil, or_false, exists_eq_or_imp, exists_eq_left]
    omega
  · rintro rfl
    exact absurd h (by decide)

theorem isBlank_of_isGap {c : Char} (h : isGap c = true) : Text.isBlank c = true := by
  rw [isGap, Bool.or_eq_true, beq_iff_eq, beq_iff_eq] at h
  rcases h with rfl | rfl <;> decide

/-- A name starts with a character that no comment starts with. -/
theorem exists_cons_of_isName {name : List Char} (h : isName name = true) :
    (∃ c rest, name = c :: rest ∧ c ≠ '#') ∧ ∀ c ∈ name, isNameChar c = true := by
  cases name with
  | nil => exact absurd h (by decide)
  | cons c rest =>
    rw [isName, Bool.and_eq_true, List.all_eq_true] at h
    refine ⟨⟨c, rest, rfl, ?_⟩, h.2⟩
    rintro rfl
    exact absurd h.1 (by decide)

/-- A value without blanks is written as it is. -/
theorem value?_of_noBlank {value : List Char} (h : NoBlank value) : value? value = some value := by
  have hnoGap : ∀ c ∈ value, (!isGap c) = true := by
    intro c hc
    rw [Bool.not_eq_true', Bool.eq_false_iff]
    intro hgap
    exact absurd (isBlank_of_isGap hgap) (by simp [h c hc])
  have hall : value.takeWhile (fun c => !isGap c) = value :=
    List.takeWhile_eq_self_iff.2 hnoGap
  have hnone : value.dropWhile (fun c => !isGap c) = [] := List.dropWhile_eq_nil_iff.2 hnoGap
  rw [value?, hnone, hall]
  rfl

section Line

variable {name value : String}

theorem IsPlain.noBlank_name (h : IsPlain name value) : NoBlank name.toList := fun c hc =>
  (isBlank_of_isNameChar ((exists_cons_of_isName h.named).2 c hc)).1

theorem IsPlain.noBlank_assignmentLine (h : IsPlain name value) :
    NoBlank (assignmentLine (name, value)) := by
  intro c hc
  rcases List.mem_append.1 hc with hc | hc
  · exact h.noBlank_name c hc
  · rcases List.mem_cons.1 hc with rfl | hc
    · decide
    · exact h.noBlank c hc

/-- The first equals sign stands between the name and the value. -/
theorem IsPlain.cut_assignmentLine (h : IsPlain name value) :
    (assignmentLine (name, value)).takeWhile (· != '=') = name.toList ∧
      (assignmentLine (name, value)).dropWhile (· != '=') = '=' :: value.toList := by
  have hbefore : ∀ c ∈ name.toList, (c != '=') = true := by
    intro c hc
    simpa using (isBlank_of_isNameChar ((exists_cons_of_isName h.named).2 c hc)).2
  constructor
  · rw [assignmentLine, List.takeWhile_append_of_pos hbefore]
    simp
  · rw [assignmentLine, List.dropWhile_append_of_pos hbefore]
    simp

/-- **A plain line assigns its value to its name.** -/
theorem IsPlain.ofChars_eq (h : IsPlain name value) :
    Line.ofChars (assignmentLine (name, value)) = .assignment name value := by
  obtain ⟨⟨c, rest, hcons, hne⟩, -⟩ := exists_cons_of_isName h.named
  obtain ⟨htake, hdrop⟩ := h.cut_assignmentLine
  have hstart : assignmentLine (name, value) = c :: (rest ++ '=' :: value.toList) := by
    rw [assignmentLine, hcons, List.cons_append]
  have hcomment : ∀ rest, value.toList ≠ '#' :: rest := by
    intro rest heq
    exact h.noComment (by rw [heq]; rfl)
  rw [Line.ofChars, Text.trim_of_noBlank h.noBlank_assignmentLine]
  split
  next hnil => simp [hstart] at hnil
  next hmark => simp [hstart, hne] at hmark
  next =>
    -- That the value is no comment selects the branch in which it is read.
    simp only [htake, hdrop, Text.trim_of_noBlank h.noBlank_name, h.named,
      Text.trim_of_noBlank h.noBlank, value?_of_noBlank h.noBlank, String.ofList_toList]

end Line

/-- **Plain assignments are what their text says.** -/
theorem Assigns.ofText_eq {text : String} {assignments : List (String × String)}
    (h : Assigns text assignments) : ofText text = assignments := by
  obtain ⟨hplain, hlines⟩ := h
  rw [ofText, hlines]
  clear hlines
  induction assignments with
  | nil => rfl
  | cons assignment assignments ih =>
    rw [List.map_cons, ofLines, (hplain _ List.mem_cons_self).ofChars_eq,
      ih fun a ha => hplain a (List.mem_cons_of_mem _ ha)]

/-- **What the process has not set has the value that the file gives it.** -/
theorem Assigns.lookup_completedBy {text : String} {assignments : List (String × String)}
    (h : Assigns text assignments) (env : Environment) (name : String) :
    (env.completedBy text).lookup name = (env.lookup name).or (assignments.lookup name) := by
  rw [completedBy, h.ofText_eq, List.lookup_append]

end KingCheck.Session.Environment
