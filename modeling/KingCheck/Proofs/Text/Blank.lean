import KingCheck.Text.Blank
import Mathlib.Data.List.DropRight
import Mathlib.Data.List.TakeWhile

/-!
# Text between blanks

Trimming takes the blanks at both ends off a text and nothing else.  A text without blanks is
what is left of any text that has it between blanks.
-/
namespace KingCheck.Text

/-- The text is blank from end to end. -/
def AllBlank (s : List Char) : Prop := ∀ c ∈ s, isBlank c = true

/-- The text holds no blank. -/
def NoBlank (s : List Char) : Prop := ∀ c ∈ s, isBlank c = false

-- Where characters are known to be finitely many, an instance may be found that tries them all.
instance (s : List Char) : Decidable (AllBlank s) :=
  decidable_of_iff (s.all isBlank = true) List.all_eq_true

instance (s : List Char) : Decidable (NoBlank s) :=
  decidable_of_iff (s.all (!isBlank ·) = true) (by simp [NoBlank])

variable {s before middle after : List Char}

theorem trim_eq_rdropWhile (s : List Char) :
    trim s = (s.dropWhile isBlank).rdropWhile isBlank := rfl

/-- Trimming takes blanks off both ends. -/
theorem exists_trim (s : List Char) :
    ∃ before after, s = before ++ trim s ++ after ∧ AllBlank before ∧ AllBlank after := by
  refine ⟨s.takeWhile isBlank, (s.dropWhile isBlank).rtakeWhile isBlank, ?_, ?_, ?_⟩
  · rw [trim_eq_rdropWhile, List.append_assoc, List.rdropWhile_append_rtakeWhile,
      List.takeWhile_append_dropWhile]
  · exact List.all_eq_true.1 List.all_takeWhile
  · exact fun c hc => List.mem_rtakeWhile_imp hc

theorem dropWhile_isBlank_of_noBlank (h : NoBlank s) : s.dropWhile isBlank = s := by
  rw [List.dropWhile_eq_self_iff]
  intro hs
  rw [h _ (List.getElem_mem hs)]
  exact Bool.false_ne_true

/-- **A text without blanks is what trimming leaves of it between blanks.** -/
theorem trim_between (hbefore : AllBlank before) (hmiddle : NoBlank middle)
    (hafter : AllBlank after) : trim (before ++ middle ++ after) = middle := by
  have hend : (middle ++ after).rdropWhile isBlank = middle := by
    rw [List.rdropWhile, List.reverse_append,
      List.dropWhile_append_of_pos fun c hc => hafter c (List.mem_reverse.1 hc),
      dropWhile_isBlank_of_noBlank fun c hc => hmiddle c (List.mem_reverse.1 hc),
      List.reverse_reverse]
  rw [trim_eq_rdropWhile, List.append_assoc, List.dropWhile_append_of_pos hbefore]
  by_cases hnil : middle = []
  · subst hnil
    rw [List.nil_append, List.dropWhile_eq_nil_iff.2 hafter]
    rfl
  · obtain ⟨c, rest, rfl⟩ := List.exists_cons_of_ne_nil hnil
    have hc : isBlank c = false := hmiddle c List.mem_cons_self
    rw [List.cons_append, List.dropWhile_cons_of_neg (by simp [hc]), ← List.cons_append, hend]

theorem trim_of_noBlank (h : NoBlank s) : trim s = s := by
  simpa using trim_between (List.forall_mem_nil _) h (List.forall_mem_nil _)

/-- A letter's case does not make it blank. -/
theorem isBlank_toLower (c : Char) : isBlank c.toLower = isBlank c := by
  by_cases h : c.val ≥ 'A'.val ∧ c.val ≤ 'Z'.val
  · have hupper : 65 ≤ c.toNat ∧ c.toNat ≤ 90 := h
    have hshift : ('a'.val - 'A'.val).toNat = 32 := by decide
    have hnat : c.val.toNat = c.toNat := rfl
    have hlower : 97 ≤ c.toLower.toNat ∧ c.toLower.toNat ≤ 122 := by
      delta Char.toLower
      rw [dif_pos h, Char.toNat, UInt32.toNat_add, hshift, hnat]
      omega
    rw [Bool.eq_iff_iff]
    simp only [isBlank, Ranges.contains_iff, whiteSpace, List.mem_cons, List.not_mem_nil, or_false,
      exists_eq_or_imp, exists_eq_left]
    omega
  · delta Char.toLower
    rw [dif_neg h]

end KingCheck.Text
