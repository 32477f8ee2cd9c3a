/-!
# Searching a list in order

A search goes through a list and stops at the first member that gives an answer.  What it answers
is said here by the place of that member: the members at smaller places give nothing.
-/
namespace KingCheck

variable {α β : Type} {l : List α} {x : β}

/-- **A search answers what the first member gives that gives anything.** -/
theorem findSome?_eq_some_iff_place {f : α → Option β} :
    l.findSome? f = some x ↔ ∃ (i : Nat) (a : α), l[i]? = some a ∧ f a = some x ∧
      ∀ j < i, ∀ a', l[j]? = some a' → f a' = none := by
  rw [List.findSome?_eq_some_iff]
  constructor
  · intro h
    obtain ⟨before, a, after, rfl, hf, hbefore⟩ := h
    refine ⟨before.length, a, by simp, hf, ?_⟩
    intro j hj a' ha'
    rw [List.getElem?_append_left hj] at ha'
    exact hbefore a' (List.mem_of_getElem? ha')
  · intro h
    obtain ⟨i, a, ha, hf, hbefore⟩ := h
    obtain ⟨hi, hget⟩ := List.getElem?_eq_some_iff.1 ha
    refine ⟨l.take i, a, l.drop (i + 1), ?_, hf, ?_⟩
    · rw [← hget, List.getElem_cons_drop, List.take_append_drop]
    · intro a' ha'
      obtain ⟨j, hj, rfl⟩ := List.mem_take_iff_getElem.1 ha'
      exact hbefore j (by omega) _ (List.getElem?_eq_getElem (by omega))

/-- The same of a search that is told the places. -/
theorem findSome?_zipIdx_eq_some_iff {f : α × Nat → Option β} :
    l.zipIdx.findSome? f = some x ↔ ∃ (i : Nat) (a : α), l[i]? = some a ∧ f (a, i) = some x ∧
      ∀ j < i, ∀ a', l[j]? = some a' → f (a', j) = none := by
  rw [findSome?_eq_some_iff_place]
  simp only [List.getElem?_zipIdx, Nat.zero_add]
  constructor
  · intro h
    obtain ⟨i, member, hi, hf, hbefore⟩ := h
    obtain ⟨a, ha, rfl⟩ := Option.map_eq_some_iff.1 hi
    exact ⟨i, a, ha, hf, fun j hj a' ha' => hbefore j hj (a', j) (by simp [ha'])⟩
  · intro h
    obtain ⟨i, a, hi, hf, hbefore⟩ := h
    refine ⟨i, (a, i), by simp [hi], hf, ?_⟩
    intro j hj member hmember
    obtain ⟨a', ha', rfl⟩ := Option.map_eq_some_iff.1 hmember
    exact hbefore j hj a' ha'

/-- A search answers the same where its members do. -/
theorem findSome?_congr {f g : α → Option β} (h : ∀ a ∈ l, f a = g a) :
    l.findSome? f = l.findSome? g := by
  induction l with
  | nil => rfl
  | cons a l ih =>
    rw [List.findSome?_cons, List.findSome?_cons, h a List.mem_cons_self,
      ih fun a' ha' => h a' (List.mem_cons_of_mem a ha')]

/-- Where all answers are the same, a search that has one answers it. -/
theorem findSome?_eq_some_of_unique {f : α → Option β} {a : α} (ha : a ∈ l) (hf : f a = some x)
    (hunique : ∀ a' ∈ l, ∀ y, f a' = some y → y = x) : l.findSome? f = some x := by
  have hsome : (l.findSome? f).isSome = true :=
    List.findSome?_isSome_iff.2 ⟨a, ha, by rw [hf]; rfl⟩
  obtain ⟨y, hy⟩ := Option.isSome_iff_exists.1 hsome
  obtain ⟨a', ha', hfy⟩ := List.exists_of_findSome?_eq_some hy
  rw [hy, hunique a' ha' y hfy]

end KingCheck
