import KingCheck.Input.Reader
import KingCheck.Proofs.Text.Utf8
import KingCheck.Text.Lines
import Mathlib.Data.List.DropRight

/-!
# Lines of a text

Lines that hold no separator are the pieces of the text they make, whether the last of
them is ended by a separator too (`pieces_flatMap`) or not (`pieces_intercalate`), and every
text is made of its pieces in one of these ways (`cut_iff`).  Since a newline is an octet that
no other character has, the lines of an encoded text are the encodings of its lines
(`pieces_encode`).
-/
namespace KingCheck.Text

section Pieces

variable {α : Type} [DecidableEq α] {sep : α} {lines : List (List α)}

/-- Lines that are ended come off one by one. -/
theorem pieces_flatMap_append (h : ∀ line ∈ lines, sep ∉ line) (s : List α) :
    pieces sep (lines.flatMap (· ++ [sep]) ++ s) = lines ++ pieces sep s := by
  induction lines with
  | nil => rfl
  | cons line lines ih =>
    have hline : sep ∉ line := h line List.mem_cons_self
    rw [List.flatMap_cons, List.append_assoc, List.append_assoc, List.singleton_append,
      pieces_append_sep sep hline, ih fun l hl => h l (List.mem_cons_of_mem _ hl), List.cons_append]

/-- Lines that are all ended are the pieces of their text. -/
theorem pieces_flatMap (h : ∀ line ∈ lines, sep ∉ line) :
    pieces sep (lines.flatMap (· ++ [sep])) = lines := by
  simpa using pieces_flatMap_append h []

/-- Of lines with separators between them only an empty last one is no piece. -/
theorem pieces_intercalate (h : ∀ line ∈ lines, sep ∉ line) :
    pieces sep ([sep].intercalate lines) =
      if lines.getLast? = some [] then lines.dropLast else lines := by
  induction lines with
  | nil => rfl
  | cons line lines ih =>
    have hline : sep ∉ line := h line List.mem_cons_self
    cases lines with
    | nil =>
      rw [List.intercalate_singleton]
      by_cases hnil : line = []
      · simp [hnil]
      · simp [pieces_of_not_mem sep hline hnil, hnil]
    | cons next others =>
      rw [List.intercalate_cons_cons, List.append_assoc, List.singleton_append,
        pieces_append_sep sep hline, ih fun l hl => h l (List.mem_cons_of_mem _ hl),
        List.getLast?_cons_cons, List.dropLast_cons_cons]
      split <;> rfl

/-- What holds no separator goes before the first piece. -/
theorem pieces_append {begun : List α} (h : sep ∉ begun) (hne : begun ≠ []) (s : List α) :
    pieces sep (begun ++ s) = (begun ++ (pieces sep s).head?.getD []) :: (pieces sep s).tail := by
  induction begun with
  | nil => exact absurd rfl hne
  | cons a begun ih =>
    have ha : a ≠ sep := fun e => h (by simp [e])
    have hbegun : sep ∉ begun := fun m => h (List.mem_cons_of_mem a m)
    rw [List.cons_append, pieces, List.foldr_cons]
    change place sep a (pieces sep (begun ++ s)) = _
    by_cases hnil : begun = []
    · subst hnil
      cases hs : pieces sep s <;> simp [place, ha, hs]
    · rw [ih hbegun hnil, place, if_neg ha, List.cons_append]

/-- What is put before a text takes none of its pieces away. -/
theorem length_pieces_le_append (begun s : List α) :
    (pieces sep s).length ≤ (pieces sep (begun ++ s)).length := by
  induction begun with
  | nil => exact Nat.le_refl _
  | cons a begun ih =>
    refine ih.trans ?_
    rw [List.cons_append, pieces, pieces, List.foldr_cons]
    generalize List.foldr (place sep) [] (begun ++ s) = cut
    cases cut with
    | nil => exact Nat.zero_le _
    | cons piece others =>
      rw [place]
      split <;> simp

/-- A text is the lines that a separator ends, and what is behind the last of these. -/
theorem exists_ended (sep : α) (s : List α) : ∃ (lines : List (List α)) (tail : List α),
    (∀ line ∈ lines, sep ∉ line) ∧ sep ∉ tail ∧ s = lines.flatMap (· ++ [sep]) ++ tail ∧
    s.rdropWhile (· != sep) = lines.flatMap (· ++ [sep]) := by
  induction s using List.reverseRecOn with
  | nil => exact ⟨[], [], by simp, List.not_mem_nil, rfl, rfl⟩
  | append_singleton s a ih =>
    obtain ⟨lines, tail, hlines, htail, hs, hended⟩ := ih
    by_cases ha : a = sep
    · -- What was behind the last line becomes a line.
      have hall : s ++ [a] = (lines ++ [tail]).flatMap (· ++ [sep]) := by
        rw [List.flatMap_append, List.flatMap_singleton, hs, ha, List.append_assoc]
      refine ⟨lines ++ [tail], [], ?_, List.not_mem_nil, ?_, ?_⟩
      · intro line hline
        rcases List.mem_append.1 hline with hbefore | hlast
        · exact hlines line hbefore
        · rwa [List.mem_singleton.1 hlast]
      · rw [hall, List.append_nil]
      · rw [List.rdropWhile_concat_neg _ _ _ (by simpa using ha), hall]
    · refine ⟨lines, tail ++ [a], hlines, ?_, ?_, ?_⟩
      · exact List.not_mem_append htail (by simpa using Ne.symm ha)
      · rw [hs, List.append_assoc]
      · rw [List.rdropWhile_concat_pos _ _ _ (by simpa using ha), hended]

end Pieces

section Cut

variable {α : Type} {sep a : α} {s : List α} {lines : List (List α)}

/-- Lines that make up a text: none holds a separator, and each is ended by one, but that the
end of the text may end the last, if there is something on it. -/
structure Cut (sep : α) (s : List α) (lines : List (List α)) : Prop where
  notMem : ∀ line ∈ lines, sep ∉ line
  ended : s = lines.flatMap (· ++ [sep]) ∨
    s = [sep].intercalate lines ∧ lines.getLast? ≠ some []

namespace Cut

/-- An empty text has no lines. -/
theorem nil : Cut sep [] [] := ⟨by simp, .inl rfl⟩

/-- A separator in front ends an empty line. -/
theorem cons_sep (h : Cut sep s lines) : Cut sep (sep :: s) ([] :: lines) := by
  constructor
  · intro line hline
    rcases List.mem_cons.1 hline with rfl | hrest
    · exact List.not_mem_nil
    · exact h.notMem line hrest
  · rcases h.ended with hall | ⟨hbetween, hlast⟩
    · left
      rw [List.flatMap_cons, hall, List.nil_append, List.singleton_append]
    · cases lines with
      | nil =>
        left
        rw [hbetween]
        rfl
      | cons line lines =>
        right
        rw [List.intercalate_cons_cons, ← hbetween, List.getLast?_cons_cons]
        exact ⟨rfl, hlast⟩

/-- Anything else in front belongs to the first line. -/
theorem cons_of_ne (ha : a ≠ sep) (h : Cut sep s lines) :
    Cut sep (a :: s) ((a :: lines.head?.getD []) :: lines.tail) := by
  cases lines with
  | nil =>
    have hs : s = [] := by
      rcases h.ended with hall | ⟨hbetween, -⟩
      · exact hall
      · exact hbetween
    subst hs
    refine ⟨?_, .inr ⟨rfl, by simp⟩⟩
    simpa using Ne.symm ha
  | cons line lines =>
    constructor
    · intro l hl
      rcases List.mem_cons.1 hl with rfl | hrest
      · have hline := h.notMem line List.mem_cons_self
        simpa using ⟨Ne.symm ha, hline⟩
      · exact h.notMem l (List.mem_cons_of_mem line hrest)
    · rcases h.ended with hall | ⟨hbetween, hlast⟩
      · left
        rw [hall]
        rfl
      · right
        cases lines with
        | nil => simpa using hbetween
        | cons next others =>
          rw [hbetween]
          simpa [List.getLast?_cons_cons] using hlast

end Cut

/-- **The pieces of a text are the lines that make it up.** -/
theorem cut_iff [DecidableEq α] : Cut sep s lines ↔ pieces sep s = lines := by
  constructor
  · intro h
    rcases h.ended with rfl | ⟨rfl, hlast⟩
    · exact pieces_flatMap h.notMem
    · rw [pieces_intercalate h.notMem, if_neg hlast]
  · rintro rfl
    induction s with
    | nil => exact Cut.nil
    | cons a s ih =>
      by_cases ha : a = sep
      · rw [ha, pieces_cons_sep]
        exact ih.cons_sep
      · have hone : sep ∉ [a] := by simpa using Ne.symm ha
        rw [← List.singleton_append, pieces_append hone (List.cons_ne_nil a [])]
        exact ih.cons_of_ne ha

/-- No piece holds a separator. -/
theorem notMem_of_mem_pieces [DecidableEq α] {piece : List α} (h : piece ∈ pieces sep s) :
    sep ∉ piece :=
  (cut_iff.2 rfl : Cut sep s (pieces sep s)).notMem piece h

end Cut

open Input (newline)

/-- A newline encodes one character only. -/
theorem newline_mem_encode_iff {cs : List Char} : newline ∈ encode cs ↔ '\n' ∈ cs :=
  mem_encode_iff_of_lt (by decide)

theorem octets_append (s t : String) : octets (s ++ t) = octets s ++ octets t := by
  rw [octets, String.toList_append, encode_append]
  rfl

/-- **The lines of an encoded text are the encodings of its lines.** -/
theorem pieces_encode (cs : List Char) :
    pieces newline (encode cs) = (pieces '\n' cs).map encode := by
  induction cs with
  | nil => rfl
  | cons c cs ih =>
    by_cases hc : c = '\n'
    · subst hc
      have hencode : encode ('\n' :: cs) = newline :: encode cs := encode_cons _ _
      rw [hencode, pieces_cons_sep, pieces_cons_sep, ih, List.map_cons, encode_nil]
    · have hchar : String.utf8EncodeChar c = encode [c] := by
        rw [encode_cons, encode_nil, List.append_nil]
      have hnewline : newline ∉ encode [c] := by
        rw [newline_mem_encode_iff, List.mem_singleton]
        exact Ne.symm hc
      have hne : encode [c] ≠ [] := by
        rw [← hchar]
        exact String.utf8EncodeChar_ne_nil
      have hone : '\n' ∉ [c] := by simpa using Ne.symm hc
      have hcut := pieces_append hone (List.cons_ne_nil c []) cs
      rw [List.singleton_append] at hcut
      rw [encode_cons, hchar, pieces_append hnewline hne, ih, hcut]
      cases pieces '\n' cs with
      | nil => simp
      | cons line lines => simp [encode_cons c line, hchar]

/-- Any number of returns at the end never shows. -/
theorem trimReturns_append_replicate (line : List Char) (n : Nat) :
    trimReturns (line ++ List.replicate n '\r') = trimReturns line := by
  induction n with
  | zero => rw [List.replicate_zero, List.append_nil]
  | succ n ih => rw [List.replicate_succ', ← List.append_assoc, trimReturns_append_return, ih]

/-- A line without returns keeps all its characters. -/
theorem trimReturns_of_not_mem {line : List Char} (h : '\r' ∉ line) : trimReturns line = line := by
  cases hrev : line.reverse with
  | nil => rw [List.reverse_eq_nil_iff.1 hrev, trimReturns_nil]
  | cons c rest =>
    have hc : c ∈ line := by
      rw [← List.mem_reverse, hrev]
      exact List.mem_cons_self
    have hne : c ≠ '\r' := fun e => h (e ▸ hc)
    rw [trimReturns, hrev, List.dropWhile_cons, if_neg (by simpa using hne), ← hrev,
      List.reverse_reverse]

/-- Only returns are taken off a line. -/
theorem exists_trimReturns (line : List Char) :
    ∃ n, line = trimReturns line ++ List.replicate n '\r' := by
  have hreturns : line.rtakeWhile (· == '\r') =
      List.replicate (line.rtakeWhile (· == '\r')).length '\r' :=
    List.eq_replicate_length.2 fun c hc => by simpa using List.mem_rtakeWhile_imp hc
  have htrim : trimReturns line = line.rdropWhile (· == '\r') := rfl
  refine ⟨(line.rtakeWhile (· == '\r')).length, ?_⟩
  rw [← hreturns, htrim, List.rdropWhile_append_rtakeWhile]

/-- What is left of a line was in it. -/
theorem mem_of_mem_trimReturns {line : List Char} {c : Char} (h : c ∈ trimReturns line) :
    c ∈ line := by
  obtain ⟨n, hn⟩ := exists_trimReturns line
  rw [hn]
  exact List.mem_append_left _ h

end KingCheck.Text
