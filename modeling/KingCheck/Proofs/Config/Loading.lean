import KingCheck.Proofs.Config.Words

/-!
# How settings are loaded

Variables come first, and a bad one decides whatever the arguments say.  Arguments are then taken
in pairs of a flag and a value up to the first place where that fails (`Fault`).  Each setting has
what its last flag says, or else its variable, or else its default; one setting never shows in
another.
-/
namespace KingCheck.Config

/-! ## Variables -/

section Variables

/-- Every variable that is set holds a value that can be given to its setting. -/
def AllAccepted (lookup : String → Option String) : Prop :=
  ∀ (s : Setting) value, lookup s.variableName = some value → s.Accepts value

variable {lookup : String → Option String}

/-- Settings are changed by their own variables alone. -/
theorem withVariables_congr {other : String → Option String}
    (h : ∀ s : Setting, other s.variableName = lookup s.variableName) (settings : List Setting)
    (c : Config) : c.withVariables other settings = c.withVariables lookup settings := by
  induction settings generalizing c with
  | nil => rfl
  | cons s settings ih => simp only [withVariables, h s, ih]

/-- A variable that is set to a value that can be given changes its own setting. -/
theorem withVariables_cons {s : Setting}
    (haccepted : ∀ value, lookup s.variableName = some value → s.Accepts value) (c : Config) :
    ∃ next : Config,
      (∀ settings, c.withVariables lookup (s :: settings) = next.withVariables lookup settings) ∧
      ∀ values, c.Reflects values →
        next.Reflects (Function.update values s ((lookup s.variableName).or (values s))) := by
  cases hlookup : lookup s.variableName with
  | none =>
    refine ⟨c, fun settings => by simp only [withVariables, hlookup], fun values h => ?_⟩
    rwa [Option.none_or, Function.update_eq_self]
  | some value =>
    obtain ⟨next, hset, hnext⟩ := set_of_accepts (haccepted value hlookup) c s.variableName
    exact ⟨next, fun settings => by simp only [withVariables, hlookup, hset], hnext⟩

/-- Variables that can all be given are given, to the settings that are asked for. -/
theorem withVariables_of_allAccepted (settings : List Setting) (hall : AllAccepted lookup)
    (c : Config) :
    ∃ c', c.withVariables lookup settings = .ok c' ∧
      ∀ values, c.Reflects values → c'.Reflects fun s =>
        if s ∈ settings then (lookup s.variableName).or (values s) else values s := by
  induction settings generalizing c with
  | nil => exact ⟨c, rfl, fun values h => by simpa using h⟩
  | cons s settings ih =>
    obtain ⟨next, hfirst, hnext⟩ := withVariables_cons (hall s) c
    obtain ⟨c', hrest, hreflects⟩ := ih next
    refine ⟨c', (hfirst settings).trans hrest, fun values h => ?_⟩
    convert hreflects _ (hnext values h) using 2 with t
    by_cases heq : t = s
    · subst heq
      cases lookup t.variableName <;> simp
    · simp [heq]

/-- The variable of a setting is the first that holds a value that cannot be given. -/
structure FirstBad (lookup : String → Option String) (s : Setting) (value : String) : Prop where
  given : lookup s.variableName = some value
  bad : ¬ s.Accepts value
  first : ∃ before after, Setting.all = before ++ s :: after ∧
    ∀ t ∈ before, ∀ earlier, lookup t.variableName = some earlier → t.Accepts earlier

theorem withVariables_of_bad {before after : List Setting} {s : Setting} {value : String}
    (hbefore : ∀ t ∈ before, ∀ earlier, lookup t.variableName = some earlier → t.Accepts earlier)
    (hgiven : lookup s.variableName = some value) (hbad : ¬ s.Accepts value) (c : Config) :
    c.withVariables lookup (before ++ s :: after) =
      .error (.invalidValue s.variableName value s.words) := by
  induction before generalizing c with
  | nil => simp only [List.nil_append, withVariables, hgiven, set_of_not_accepts hbad]
  | cons t before ih =>
    obtain ⟨next, hfirst, -⟩ := withVariables_cons (hbefore t List.mem_cons_self) c
    rw [List.cons_append, hfirst]
    exact ih (fun u hu => hbefore u (List.mem_cons_of_mem t hu)) next

/-- Some variable is the first bad one, or all can be given. -/
theorem exists_firstBad_or_allAccepted (lookup : String → Option String) :
    (∃ s value, FirstBad lookup s value) ∨ AllAccepted lookup := by
  classical
  let isBad (s : Setting) : Prop := ∃ value, lookup s.variableName = some value ∧ ¬ s.Accepts value
  cases hfind : Setting.all.find? fun s => decide (isBad s) with
  | some s =>
    obtain ⟨hbad, before, after, hall, hbefore⟩ := List.find?_eq_some_iff_append.1 hfind
    obtain ⟨value, hgiven, hvalue⟩ := of_decide_eq_true hbad
    refine .inl ⟨s, value, hgiven, hvalue, before, after, hall, fun t ht earlier hearlier => ?_⟩
    by_contra hnot
    exact absurd (hbefore t ht) (by simpa [isBad] using ⟨earlier, hearlier, hnot⟩)
  | none =>
    refine .inr fun s value hgiven => ?_
    by_contra hnot
    exact List.find?_eq_none.1 hfind s s.mem_all (decide_eq_true ⟨value, hgiven, hnot⟩)

end Variables

/-! ## Arguments -/

/-- The arguments that give values to settings by their flags. -/
def spelledOut (given : List (Setting × String)) : List String :=
  given.flatMap fun (s, value) => [s.flag, value]

/-- The value that is given last to a setting. -/
def lastGiven (given : List (Setting × String)) (s : Setting) : Option String :=
  given.reverse.lookup s

/-- What is wrong with arguments at their first place. -/
inductive Fault : List String → ConfigError → Prop where
  /-- There is a word that is no flag. -/
  | unknown {word : String} {rest : List String} (hword : ∀ s : Setting, s.flag ≠ word) :
      Fault (word :: rest) (.unknownArgument word)
  /-- There is a flag and nothing after it. -/
  | missing (s : Setting) : Fault [s.flag] (.missingValue s.flag)
  /-- There is a flag with a value that its setting does not accept. -/
  | invalid {s : Setting} {value : String} {rest : List String} (hvalue : ¬ s.Accepts value) :
      Fault (s.flag :: value :: rest) (.invalidValue s.flag value s.words)

theorem withArguments_pair (c : Config) (s : Setting) (value : String) (rest : List String) :
    c.withArguments (s.flag :: value :: rest) =
      match c.set s s.flag value with
      | .ok c' => c'.withArguments rest
      | .error e => .error e :=
  withArguments.eq_4 c _ s value rest s.ofFlag?_flag

/-- Faulty arguments are refused. -/
theorem withArguments_of_fault {arguments : List String} {e : ConfigError}
    (h : Fault arguments e) (c : Config) : c.withArguments arguments = .error e := by
  cases h with
  | unknown hword => exact withArguments.eq_2 c _ _ (Setting.ofFlag?_eq_none_iff.2 hword)
  | missing s => exact withArguments.eq_3 c _ s s.ofFlag?_flag
  | invalid hvalue => rw [withArguments_pair, set_of_not_accepts hvalue]

theorem lastGiven_cons (given : List (Setting × String)) (s t : Setting) (value : String) :
    lastGiven ((s, value) :: given) t =
      (lastGiven given t).or (if t = s then some value else none) := by
  rw [lastGiven, List.reverse_cons, List.lookup_append]
  by_cases heq : t = s
  · simp [lastGiven, heq]
  · have hne : (t == s) = false := by simpa using heq
    simp [lastGiven, heq, hne, List.lookup_cons]

/-- Values that can be given are given one after the other, before anything that follows. -/
theorem withArguments_spelledOut {given : List (Setting × String)}
    (hall : ∀ g ∈ given, g.1.Accepts g.2) (c : Config) :
    ∃ c' : Config, (∀ rest, c.withArguments (spelledOut given ++ rest) = c'.withArguments rest) ∧
      ∀ values, c.Reflects values →
        c'.Reflects fun s => (lastGiven given s).or (values s) := by
  induction given generalizing c with
  | nil => exact ⟨c, fun _ => rfl, fun values h => h⟩
  | cons g given ih =>
    obtain ⟨s, value⟩ := g
    obtain ⟨next, hset, hnext⟩ :=
      set_of_accepts (hall (s, value) List.mem_cons_self) c s.flag
    obtain ⟨c', hrest, hreflects⟩ := ih (fun g hg => hall g (List.mem_cons_of_mem _ hg)) next
    refine ⟨c', fun rest => ?_, fun values h => ?_⟩
    · have hspelled : spelledOut ((s, value) :: given) ++ rest =
          s.flag :: value :: (spelledOut given ++ rest) := rfl
      rw [hspelled, withArguments_pair, hset]
      exact hrest rest
    · convert hreflects _ (hnext values h) using 2 with t
      rw [lastGiven_cons, Function.update_apply]
      cases lastGiven given t with
      | some last => rfl
      | none => split <;> rfl

/-- Arguments give values up to their end, or up to a fault. -/
theorem exists_spelledOut (arguments : List String) :
    ∃ given, (∀ g ∈ given, g.1.Accepts g.2) ∧
      (arguments = spelledOut given ∨
        ∃ rest e, arguments = spelledOut given ++ rest ∧ Fault rest e) := by
  induction arguments using List.twoStepInduction with
  | nil => exact ⟨[], by simp, .inl rfl⟩
  | singleton word =>
    refine ⟨[], by simp, .inr ⟨[word], ?_⟩⟩
    by_cases hflag : ∃ s : Setting, s.flag = word
    · obtain ⟨s, rfl⟩ := hflag
      exact ⟨_, rfl, .missing s⟩
    · exact ⟨_, rfl, .unknown (not_exists.1 hflag)⟩
  | cons_cons word value rest ih =>
    by_cases hflag : ∃ s : Setting, s.flag = word
    · obtain ⟨s, rfl⟩ := hflag
      by_cases hvalue : s.Accepts value
      · obtain ⟨given, hall, hrest⟩ := ih
        refine ⟨(s, value) :: given, List.forall_mem_cons.2 ⟨hvalue, hall⟩, ?_⟩
        rcases hrest with rfl | ⟨rest', e, rfl, hfault⟩
        · exact .inl rfl
        · exact .inr ⟨rest', e, rfl, hfault⟩
      · exact ⟨[], by simp, .inr ⟨_, _, rfl, .invalid hvalue⟩⟩
    · exact ⟨[], by simp, .inr ⟨_, _, rfl, .unknown (not_exists.1 hflag)⟩⟩

/-! ## Both -/

/-- No other variable has a part in the settings. -/
theorem load_congr {lookup other : String → Option String}
    (h : ∀ s : Setting, other s.variableName = lookup s.variableName) (arguments : List String) :
    load other arguments = load lookup arguments := by
  rw [load, load, withVariables_congr h]

/-- A bad variable is told whatever the arguments say. -/
theorem load_of_firstBad {lookup : String → Option String} {s : Setting} {value : String}
    (h : FirstBad lookup s value) (arguments : List String) :
    load lookup arguments = .error (.invalidValue s.variableName value s.words) := by
  obtain ⟨hgiven, hbad, before, after, hall, hbefore⟩ := h
  rw [load, hall, withVariables_of_bad hbefore hgiven hbad]

/-- Where no variable is bad, the arguments decide about settings that have the variables'
values. -/
theorem load_of_allAccepted {lookup : String → Option String} (h : AllAccepted lookup) :
    ∃ c : Config, (∀ arguments, load lookup arguments = c.withArguments arguments) ∧
      c.Reflects fun s => lookup s.variableName := by
  obtain ⟨c, hvariables, hreflects⟩ := withVariables_of_allAccepted Setting.all h {}
  refine ⟨c, fun arguments => by rw [load, hvariables], ?_⟩
  simpa [Setting.mem_all] using hreflects _ reflects_default

/-- **How settings are loaded.**  Where a variable is set to a value that its setting does not
accept, the first such variable is told, with the value as it is, whatever the arguments are.
Otherwise arguments are pairs of a flag and a value, which may itself look like a flag, up to the
end or up to a fault, and every list of arguments is of this kind.  The first fault is told: a word
that is no flag, a flag without a value, or a value that its setting does not accept.  Without a
fault there are settings, and each is what its last flag says, or else its variable, or else its
default. -/
theorem load_reflects_last (lookup : String → Option String) (arguments : List String) :
    ((∃ s value, FirstBad lookup s value) ∨ AllAccepted lookup) ∧
    (∀ s value, FirstBad lookup s value →
      load lookup arguments = .error (.invalidValue s.variableName value s.words)) ∧
    (AllAccepted lookup →
      (∃ given, (∀ g ∈ given, g.1.Accepts g.2) ∧
        (arguments = spelledOut given ∨
          ∃ rest e, arguments = spelledOut given ++ rest ∧ Fault rest e)) ∧
      ∀ given, (∀ g ∈ given, g.1.Accepts g.2) →
        (arguments = spelledOut given →
          ∃ c, load lookup arguments = .ok c ∧ ∀ c', c' = c ↔
            c'.Reflects fun s => (lastGiven given s).or (lookup s.variableName)) ∧
        ∀ rest e, arguments = spelledOut given ++ rest → Fault rest e →
          load lookup arguments = .error e) := by
  refine ⟨exists_firstBad_or_allAccepted lookup, fun s value h => load_of_firstBad h arguments, ?_⟩
  intro hlookup
  obtain ⟨start, hload, hstart⟩ := load_of_allAccepted hlookup
  refine ⟨exists_spelledOut arguments, fun given hgiven => ?_⟩
  obtain ⟨c, hspelled, hreflects⟩ := withArguments_spelledOut hgiven start
  constructor
  · rintro rfl
    have hend := hspelled []
    rw [List.append_nil] at hend
    refine ⟨c, (hload _).trans hend, fun c' => ?_⟩
    constructor
    · rintro rfl
      exact hreflects _ hstart
    · intro h
      exact h.unique (hreflects _ hstart)
  · rintro rest e rfl hfault
    rw [hload, hspelled, withArguments_of_fault hfault]

/-- A variable in capitals between blanks, a flag that is given as a value and a flag that is
given twice; then the same with a word that is no flag behind it, and with a bad variable. -/
theorem load_reflects_last_flagAsValue :
    let lookup (output name : String) : Option String :=
      [("CHECK_ON_MALFORMED", " SKIP\t"), ("CHECK_OUTPUT", output)].lookup name
    let arguments := ["--input", "--output", "--output", "JSON", "--input", "b.txt"]
    load (lookup "text") arguments = .ok ⟨some "b.txt", .json, ⟨.skip, .ignore⟩⟩ ∧
    load (lookup "text") (arguments ++ ["--verbose", "--input"]) =
      .error (.unknownArgument "--verbose") ∧
    load (lookup " xml") arguments =
      .error (.invalidValue "CHECK_OUTPUT" " xml" ["text", "json"]) := by
  intro lookup arguments
  let given : List (Setting × String) :=
    [(.input, "--output"), (.output, "JSON"), (.input, "b.txt")]
  have haccepted : AllAccepted (lookup "text") := by
    intro s value h
    cases s <;> simp [lookup, Setting.variableName, List.lookup_cons] at h
    all_goals subst h; decide +kernel
  have hgiven : ∀ g ∈ given, g.1.Accepts g.2 := by decide +kernel
  have hbad : FirstBad (lookup " xml") .output " xml" := by
    refine ⟨rfl, by decide +kernel, [.input, .onMalformed, .missingKing], [], rfl, ?_⟩
    intro t ht earlier h
    have hnot : t ≠ .output := by
      rintro rfl
      exact absurd ht (by decide)
    cases t <;> simp [lookup, Setting.variableName, List.lookup_cons] at h hnot
    subst h
    decide +kernel
  obtain ⟨-, -, hload⟩ := load_reflects_last (lookup "text") arguments
  obtain ⟨-, -, hfault⟩ :=
    load_reflects_last (lookup "text") (arguments ++ ["--verbose", "--input"])
  refine ⟨?_, ?_, ?_⟩
  · obtain ⟨c, hc, hunique⟩ := ((hload haccepted).2 given hgiven).1 rfl
    rw [hc, ← (hunique ⟨some "b.txt", .json, ⟨.skip, .ignore⟩⟩).2]
    exact ⟨rfl, (OnMalformed.wordTable.readWord_eq_ok_iff _ "").1 (by decide +kernel), rfl,
      (Format.wordTable.readWord_eq_ok_iff _ "").1 (by decide +kernel)⟩
  · refine ((hfault haccepted).2 given hgiven).2 _ _ rfl (.unknown fun s => ?_)
    cases s <;> decide
  · exact (load_reflects_last (lookup " xml") arguments).2.1 _ _ hbad

end KingCheck.Config
