import KingCheck.Proofs.Text.Lines

/-!
# Returns at the ends of lines

Returns in front of a separator, or behind a last line that no separator ends, change no line
but by these returns (`pieces_withReturns`).  Taken off, they leave the lines that are read, with
separators between them (`cleaned_eq`): a text that is cleaned up is the text of its lines.
-/
namespace KingCheck.Text

section Ended

variable {α : Type} {sep : α} {lines : List (List α)}

/-- Lines that are ended, with more behind them, are lines with separators between them. -/
theorem intercalate_concat (lines : List (List α)) (last : List α) :
    [sep].intercalate (lines ++ [last]) = lines.flatMap (· ++ [sep]) ++ last := by
  induction lines with
  | nil => simp
  | cons line lines ih =>
    rw [List.cons_append, List.intercalate_cons_of_ne_nil (List.concat_ne_nil last lines), ih,
      List.flatMap_cons, List.append_assoc, List.append_assoc, List.append_assoc]

/-- Lines that are all ended have one separator more than lines with separators between them. -/
theorem flatMap_eq_intercalate (h : lines ≠ []) :
    lines.flatMap (· ++ [sep]) = [sep].intercalate lines ++ [sep] := by
  obtain ⟨front, last, rfl⟩ := (List.eq_nil_or_concat' lines).resolve_left h
  rw [intercalate_concat, List.flatMap_append, List.flatMap_singleton, List.append_assoc]

end Ended

section WithReturns

variable {α : Type} [DecidableEq α] (sep ret : α)

/-- The text with `counts i` returns at the end of line `i`: in front of each separator, and at
the end of a last line that no separator ends, if there is something on it. -/
def withReturns (counts : Nat → Nat) : List α → List α
  | [] => []
  | a :: s =>
    if a = sep then
      List.replicate (counts 0) ret ++ sep :: withReturns (fun i => counts (i + 1)) s
    else
      a :: if s.isEmpty then List.replicate (counts 0) ret else withReturns counts s

variable {sep ret} {line : List α}

/-- The returns of an ended line stand in front of its separator. -/
theorem withReturns_append_sep (h : sep ∉ line) (counts : Nat → Nat) (s : List α) :
    withReturns sep ret counts (line ++ sep :: s) =
      line ++ List.replicate (counts 0) ret ++
        sep :: withReturns sep ret (fun i => counts (i + 1)) s := by
  induction line with
  | nil => simp [withReturns]
  | cons a line ih =>
    have ha : a ≠ sep := fun e => h (by simp [e])
    have hline : sep ∉ line := fun m => h (List.mem_cons_of_mem a m)
    rw [List.cons_append, withReturns, if_neg ha, if_neg (by simp), ih hline]
    rfl

/-- The returns of a line that is not ended stand at its end. -/
theorem withReturns_of_notMem (h : sep ∉ line) (hne : line ≠ []) (counts : Nat → Nat) :
    withReturns sep ret counts line = line ++ List.replicate (counts 0) ret := by
  induction line with
  | nil => exact absurd rfl hne
  | cons a line ih =>
    have ha : a ≠ sep := fun e => h (by simp [e])
    have hline : sep ∉ line := fun m => h (List.mem_cons_of_mem a m)
    rw [withReturns, if_neg ha]
    cases line with
    | nil => rfl
    | cons b line => exact congrArg (List.cons a) (ih hline (List.cons_ne_nil b line))

/-- **Returns that are put in stand at the ends of the same lines.** -/
theorem pieces_withReturns (h : ret ≠ sep) (counts : Nat → Nat) (s : List α) :
    pieces sep (withReturns sep ret counts s) =
      (pieces sep s).mapIdx fun i line => line ++ List.replicate (counts i) ret := by
  have hreturned : ∀ {line : List α}, sep ∉ line → ∀ n, sep ∉ line ++ List.replicate n ret :=
    fun hline n => List.not_mem_append hline fun hmem => h (List.eq_of_mem_replicate hmem).symm
  obtain ⟨lines, tail, hlines, htail, rfl, -⟩ := exists_ended sep s
  induction lines generalizing counts with
  | nil =>
    rw [List.flatMap_nil, List.nil_append]
    by_cases hnil : tail = []
    · subst hnil
      rfl
    · rw [withReturns_of_notMem htail hnil, pieces_of_not_mem sep htail hnil,
        pieces_of_not_mem sep (hreturned htail _) (by simp [hnil])]
      rfl
  | cons line lines ih =>
    have hline : sep ∉ line := hlines line List.mem_cons_self
    rw [List.flatMap_cons, List.append_assoc, List.append_assoc, List.singleton_append,
      withReturns_append_sep hline, pieces_append_sep sep (hreturned hline _),
      pieces_append_sep sep hline, List.mapIdx_cons,
      ih _ fun l hl => hlines l (List.mem_cons_of_mem line hl)]

example : withReturns '\n' '\r' (· + 1) "a\n\nb".toList = "a\r\n\r\r\nb\r\r\r".toList := by decide

/-- What does not see the returns of a line sees the same lines. -/
theorem map_pieces_withReturns {β : Type} {f : List α → β} (h : ret ≠ sep)
    (hf : ∀ line n, f (line ++ List.replicate n ret) = f line) (counts : Nat → Nat) (s : List α) :
    (pieces sep (withReturns sep ret counts s)).map f = (pieces sep s).map f := by
  rw [pieces_withReturns h, List.mapIdx_eq_zipIdx_map, List.map_map]
  calc (pieces sep s).zipIdx.map (f ∘ fun entry => entry.1 ++ List.replicate (counts entry.2) ret)
      = (pieces sep s).zipIdx.map (f ∘ Prod.fst) := List.map_congr_left fun _ _ => hf _ _
    _ = (pieces sep s).map f := by rw [← List.map_map, List.zipIdx_map_fst]

end WithReturns

/-! ### Taking the returns off -/

/-- The text without returns at the ends of its lines: none stands in front of a newline, and
none at the end. -/
def withoutReturns : List Char → List Char
  | [] => []
  | c :: s =>
    if c = '\r' ∧ (withoutReturns s).head?.all (· == '\n') = true then withoutReturns s
    else c :: withoutReturns s

/-- The text without the newline at its end, if there is one. -/
def withoutLastNewline (s : List Char) : List Char :=
  if s.getLast? = some '\n' then s.dropLast else s

/-- The text without the newline at its end and without returns at the ends of its lines. -/
def cleaned (s : String) : String :=
  String.ofList (withoutReturns (withoutLastNewline s.toList))

section Cleaned

variable {line s : List Char} {lines : List (List Char)}

/-- A return comes off a line that nothing but returns follows on. -/
theorem trimReturns_cons (c : Char) (line : List Char) :
    trimReturns (c :: line) =
      if c = '\r' ∧ trimReturns line = [] then [] else c :: trimReturns line := by
  have htrim : ∀ line, trimReturns line = (line.reverse.dropWhile (· == '\r')).reverse :=
    fun _ => rfl
  rw [htrim, List.reverse_cons, List.dropWhile_append]
  by_cases hnil : line.reverse.dropWhile (· == '\r') = []
  · have hline : trimReturns line = [] := by rw [htrim, hnil, List.reverse_nil]
    by_cases hc : c = '\r' <;> simp [hnil, hline, hc]
  · have hline : trimReturns line ≠ [] := by simpa [htrim] using hnil
    rw [if_neg (by simpa using hnil), if_neg fun h => hline h.2, List.reverse_append, ← htrim]
    rfl

/-- Of a line only the returns at its end come off, where a line ends behind it. -/
theorem withoutReturns_append (hline : '\n' ∉ line) {ended : List Char}
    (hs : withoutReturns s = ended) (hended : ended.head?.all (· == '\n') = true) :
    withoutReturns (line ++ s) = trimReturns line ++ ended := by
  induction line with
  | nil => exact hs
  | cons c line ih =>
    have hrest : '\n' ∉ line := fun m => hline (List.mem_cons_of_mem c m)
    rw [List.cons_append, withoutReturns, ih hrest, trimReturns_cons]
    cases htrim : trimReturns line with
    | nil => by_cases hc : c = '\r' <;> simp [hc, hended]
    | cons b left =>
      have hb : b ≠ '\n' := by
        rintro rfl
        exact hrest (mem_of_mem_trimReturns (htrim ▸ List.mem_cons_self))
      simp [hb]

theorem withoutReturns_newline_cons (s : List Char) :
    withoutReturns ('\n' :: s) = '\n' :: withoutReturns s := by
  rw [withoutReturns, if_neg (by simp)]

/-- Returns come off each of some lines with newlines between them. -/
theorem withoutReturns_intercalate (h : ∀ line ∈ lines, '\n' ∉ line) :
    withoutReturns (['\n'].intercalate lines) = ['\n'].intercalate (lines.map trimReturns) := by
  induction lines with
  | nil => rfl
  | cons line lines ih =>
    have hline : '\n' ∉ line := h line List.mem_cons_self
    cases lines with
    | nil =>
      have hone := withoutReturns_append hline (s := []) rfl rfl
      rw [List.append_nil, withoutReturns, List.append_nil] at hone
      rw [List.map_singleton, List.intercalate_singleton, List.intercalate_singleton, hone]
    | cons next others =>
      have hothers := ih fun l hl => h l (List.mem_cons_of_mem line hl)
      rw [List.map_cons] at hothers ⊢
      rw [List.map_cons, List.intercalate_cons_cons, List.intercalate_cons_cons, List.append_assoc,
        List.append_assoc, List.singleton_append, List.singleton_append, ← hothers]
      exact withoutReturns_append hline (withoutReturns_newline_cons _) rfl

/-- A text without a newline at its end is its pieces with newlines between them. -/
theorem withoutLastNewline_eq (s : List Char) :
    withoutLastNewline s = ['\n'].intercalate (pieces '\n' s) := by
  obtain ⟨lines, tail, hlines, htail, rfl, -⟩ := exists_ended '\n' s
  rw [pieces_flatMap_append hlines, withoutLastNewline]
  by_cases hnil : tail = []
  · subst hnil
    rw [pieces_nil, List.append_nil, List.append_nil]
    by_cases hempty : lines = []
    · subst hempty
      rfl
    · rw [flatMap_eq_intercalate hempty, List.getLast?_concat, if_pos rfl, List.dropLast_concat]
  · rw [pieces_of_not_mem '\n' htail hnil, intercalate_concat, if_neg]
    rw [List.getLast?_append_of_ne_nil _ hnil]
    exact fun hlast => htail (List.mem_of_getLast? hlast)

end Cleaned

/-- No line of a text holds a newline. -/
theorem newline_notMem_of_mem_lines {s line : String} (h : line ∈ lines s) :
    '\n' ∉ line.toList := by
  obtain ⟨piece, hpiece, rfl⟩ := List.mem_map.1 h
  rw [String.toList_ofList]
  exact fun hmem => notMem_of_mem_pieces hpiece (mem_of_mem_trimReturns hmem)

/-- **A text that is cleaned up is its lines with newlines between them.** -/
theorem cleaned_eq (s : String) : cleaned s = "\n".intercalate (lines s) := by
  rw [cleaned, withoutLastNewline_eq, withoutReturns_intercalate fun _ => notMem_of_mem_pieces,
    ← String.toList_inj, String.toList_ofList, String.toList_intercalate, lines, List.map_map]
  congr 1
  exact List.map_congr_left fun line _ => String.toList_ofList.symm

example : cleaned "a\r\n\rb\r\r\n\n" = "a\n\rb\n" := by decide +kernel

end KingCheck.Text
