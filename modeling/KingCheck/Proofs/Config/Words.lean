import KingCheck.Config
import KingCheck.Proofs.Text.Blank
import Mathlib.Logic.Function.Basic

/-!
# Values of settings

A value spells a word if it is the word between blanks, in letters of either case.  A setting
accepts the values that spell one of its words, and the input accepts every value.  `Reflects` says
what settings come of given values, each of its own; giving one more value changes the setting
that it is given to (`set_of_accepts`) or is refused (`set_of_not_accepts`).
-/
namespace KingCheck

/-- A value spells a word: white space may stand around it, and letters may be capitals. -/
def Spells (value word : String) : Prop :=
  ∃ before middle after, value.toList = before ++ middle ++ after ∧
    Text.AllBlank before ∧ middle.map Char.toLower = word.toList ∧ Text.AllBlank after

/-- **Values are compared as words are spelled.** -/
theorem normalWord_eq_iff {value word : String} (hword : Text.NoBlank word.toList) :
    normalWord value = word ↔ Spells value word := by
  constructor
  · rintro rfl
    obtain ⟨before, after, hvalue, hbefore, hafter⟩ := Text.exists_trim value.toList
    exact ⟨before, _, after, hvalue, hbefore, by simp [normalWord], hafter⟩
  · rintro ⟨before, middle, after, hvalue, hbefore, hmiddle, hafter⟩
    have hnoBlank : Text.NoBlank middle := by
      intro c hc
      rw [← Text.isBlank_toLower]
      exact hword _ (hmiddle ▸ List.mem_map_of_mem hc)
    rw [normalWord, hvalue, Text.trim_between hbefore hnoBlank hafter, hmiddle,
      String.ofList_toList]

/-- A table of words with their meanings: no word is there twice, and none holds a blank. -/
structure WordTable {α : Type} (words : List (String × α)) : Prop where
  nodup : (words.map Prod.fst).Nodup
  noBlank : ∀ word ∈ words.map Prod.fst, Text.NoBlank word.toList

theorem OnMalformed.wordTable : WordTable words := ⟨by decide, by decide +kernel⟩

theorem MissingKing.wordTable : WordTable words := ⟨by decide, by decide +kernel⟩

theorem Format.wordTable : WordTable words := ⟨by decide, by decide +kernel⟩

/-- What a value means, where one of some words is expected: what the word means that it spells.
Where there is no value, it is the default. -/
def Means {α : Type} (words : List (String × α)) (default : α) (value? : Option String)
    (meaning : α) : Prop :=
  match value? with
  | none => meaning = default
  | some value => ∃ word, (word, meaning) ∈ words ∧ Spells value word

namespace WordTable

variable {α : Type} {words : List (String × α)} {meaning meaning' default : α}
  {key value word : String} {value? : Option String}

theorem lookup_eq_some_iff (h : WordTable words) :
    words.lookup word = some meaning ↔ (word, meaning) ∈ words := by
  have hnodup := h.nodup
  clear h
  induction words with
  | nil => simp
  | cons entry words ih =>
    obtain ⟨first, other⟩ := entry
    rw [List.map_cons, List.nodup_cons] at hnodup
    have hrest := ih hnodup.2
    rw [List.lookup_cons, List.mem_cons, Prod.mk.injEq]
    by_cases heq : word = first
    · subst heq
      have hnone : (word, meaning) ∉ words := by
        intro hmem
        have hword : word ∈ words.map Prod.fst := List.mem_map_of_mem hmem
        exact hnodup.1 hword
      simp [hnone, eq_comm]
    · have hne : (word == first) = false := by simpa using heq
      simp [hne, heq, hrest]

/-- A value that spells a word has the meaning of the word. -/
theorem readWord_eq_ok_iff (h : WordTable words) (default : α) (key : String) :
    readWord words key value = .ok meaning ↔ Means words default (some value) meaning := by
  have hread : readWord words key value = .ok meaning ↔
      words.lookup (normalWord value) = some meaning := by
    rw [readWord]
    cases words.lookup (normalWord value) <;> simp
  rw [hread, h.lookup_eq_some_iff]
  constructor
  · intro hmem
    exact ⟨_, hmem, (normalWord_eq_iff (h.noBlank _ (List.mem_map_of_mem hmem))).1 rfl⟩
  · rintro ⟨word, hmem, hspells⟩
    rwa [(normalWord_eq_iff (h.noBlank _ (List.mem_map_of_mem hmem))).2 hspells]

theorem exists_readWord (h : WordTable words) (hword : word ∈ words.map Prod.fst)
    (hspells : Spells value word) (key : String) (default : α) :
    ∃ meaning, readWord words key value = .ok meaning ∧
      Means words default (some value) meaning := by
  obtain ⟨⟨word, meaning⟩, hmem, rfl⟩ := List.mem_map.1 hword
  have hmeans : Means words default (some value) meaning := ⟨word, hmem, hspells⟩
  exact ⟨meaning, (h.readWord_eq_ok_iff default key).2 hmeans, hmeans⟩

/-- A value that spells none is refused, and the words are told. -/
theorem readWord_of_not_spells (h : WordTable words)
    (hnone : ∀ word ∈ words.map Prod.fst, ¬ Spells value word) :
    readWord words key value = .error (.invalidValue key value (words.map Prod.fst)) := by
  cases hread : readWord words key value with
  | ok meaning =>
    obtain ⟨word, hmem, hspells⟩ := (h.readWord_eq_ok_iff meaning key).1 hread
    exact absurd hspells (hnone word (List.mem_map_of_mem hmem))
  | error e =>
    rw [readWord] at hread
    cases hlookup : words.lookup (normalWord value) <;> simp_all

/-- Values have one meaning. -/
theorem means_unique (h : WordTable words) (hmeaning : Means words default value? meaning)
    (hother : Means words default value? meaning') : meaning = meaning' := by
  cases value? with
  | none => exact hmeaning.trans hother.symm
  | some value =>
    rw [← h.readWord_eq_ok_iff default ""] at hmeaning hother
    exact Except.ok.inj (hmeaning.symm.trans hother)

end WordTable

/-! ## One setting -/

namespace Setting

/-- The words of a setting; the input has none, since every value names one. -/
def words : Setting → List String
  | .input => []
  | .onMalformed => OnMalformed.words.map Prod.fst
  | .missingKing => MissingKing.words.map Prod.fst
  | .output => Format.words.map Prod.fst

/-- A value can be given to a setting. -/
def Accepts (s : Setting) (value : String) : Prop :=
  s = .input ∨ ∃ word ∈ s.words, Spells value word

theorem noBlank_of_mem_words {s : Setting} {word : String} (h : word ∈ s.words) :
    Text.NoBlank word.toList := by
  cases s with
  | input => exact absurd h List.not_mem_nil
  | onMalformed => exact OnMalformed.wordTable.noBlank word h
  | missingKing => exact MissingKing.wordTable.noBlank word h
  | output => exact Format.wordTable.noBlank word h

theorem accepts_iff {s : Setting} {value : String} :
    s.Accepts value ↔ s = .input ∨ normalWord value ∈ s.words := by
  rw [Accepts]
  refine or_congr_right ⟨?_, fun h => ?_⟩
  · rintro ⟨word, hword, hspells⟩
    rwa [(normalWord_eq_iff (noBlank_of_mem_words hword)).2 hspells]
  · exact ⟨_, h, (normalWord_eq_iff (noBlank_of_mem_words h)).1 rfl⟩

instance (s : Setting) (value : String) : Decidable (s.Accepts value) :=
  decidable_of_iff _ accepts_iff.symm

theorem ofFlag?_eq_none_iff {word : String} :
    ofFlag? word = none ↔ ∀ s : Setting, s.flag ≠ word := by
  simp [ofFlag?, mem_all]

end Setting

namespace Config

variable {c c' : Config} {s : Setting} {key value : String}

/-- **The settings are what some values mean**, each setting of its own value: the input is the
value itself, and the others are what the words mean that are spelled. -/
structure Reflects (c : Config) (values : Setting → Option String) : Prop where
  input : c.input = values .input
  onMalformed : Means OnMalformed.words .abort (values .onMalformed) c.options.onMalformed
  missingKing : Means MissingKing.words .ignore (values .missingKing) c.options.missingKing
  output : Means Format.words .text (values .output) c.output

/-- Without values there are the defaults. -/
theorem reflects_default : ({} : Config).Reflects fun _ => none := ⟨rfl, rfl, rfl, rfl⟩

/-- Values determine the settings. -/
theorem Reflects.unique {values : Setting → Option String} (h : c.Reflects values)
    (h' : c'.Reflects values) : c = c' := by
  obtain ⟨input, output, onMalformed, missingKing⟩ := c
  obtain ⟨input', output', onMalformed', missingKing'⟩ := c'
  have hinput := h.input.trans h'.input.symm
  have honMalformed := OnMalformed.wordTable.means_unique h.onMalformed h'.onMalformed
  have hmissingKing := MissingKing.wordTable.means_unique h.missingKing h'.missingKing
  have houtput := Format.wordTable.means_unique h.output h'.output
  simp_all

/-- A value that can be given changes its own setting and no other. -/
theorem set_of_accepts (h : s.Accepts value) (c : Config) (key : String) :
    ∃ c', c.set s key value = .ok c' ∧
      ∀ values, c.Reflects values → c'.Reflects (Function.update values s (some value)) := by
  cases s with
  | input => exact ⟨_, rfl, fun values h => ⟨rfl, h.onMalformed, h.missingKing, h.output⟩⟩
  | onMalformed =>
    obtain ⟨word, hword, hspells⟩ := h.resolve_left (by decide)
    obtain ⟨meaning, hread, hmeans⟩ :=
      OnMalformed.wordTable.exists_readWord hword hspells key .abort
    refine ⟨{ c with options := { c.options with onMalformed := meaning } }, ?_, ?_⟩
    · rw [set, hread]
      rfl
    · exact fun values h => ⟨h.input, hmeans, h.missingKing, h.output⟩
  | missingKing =>
    obtain ⟨word, hword, hspells⟩ := h.resolve_left (by decide)
    obtain ⟨meaning, hread, hmeans⟩ :=
      MissingKing.wordTable.exists_readWord hword hspells key .ignore
    refine ⟨{ c with options := { c.options with missingKing := meaning } }, ?_, ?_⟩
    · rw [set, hread]
      rfl
    · exact fun values h => ⟨h.input, h.onMalformed, hmeans, h.output⟩
  | output =>
    obtain ⟨word, hword, hspells⟩ := h.resolve_left (by decide)
    obtain ⟨meaning, hread, hmeans⟩ := Format.wordTable.exists_readWord hword hspells key .text
    refine ⟨{ c with output := meaning }, ?_, ?_⟩
    · rw [set, hread]
      rfl
    · exact fun values h => ⟨h.input, h.onMalformed, h.missingKing, hmeans⟩

/-- Any other value is refused. -/
theorem set_of_not_accepts (h : ¬ s.Accepts value) (c : Config) (key : String) :
    c.set s key value = .error (.invalidValue key value s.words) := by
  rw [Setting.Accepts, not_or] at h
  obtain ⟨hinput, hwords⟩ := h
  have hnone : ∀ word ∈ s.words, ¬ Spells value word := by
    intro word hword hspells
    exact hwords ⟨word, hword, hspells⟩
  cases s with
  | input => exact absurd rfl hinput
  | onMalformed => rw [set, OnMalformed.wordTable.readWord_of_not_spells hnone]; rfl
  | missingKing => rw [set, MissingKing.wordTable.readWord_of_not_spells hnone]; rfl
  | output => rw [set, Format.wordTable.readWord_of_not_spells hnone]; rfl

end Config
end KingCheck
