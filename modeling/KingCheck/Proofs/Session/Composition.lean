import KingCheck.Proofs.Config.Loading
import KingCheck.Proofs.Referee.Refusal
import KingCheck.Proofs.Session.Assignments
import KingCheck.Proofs.Session.Paths
import KingCheck.Session.Transcript

/-!
# What a session is composed of

A session loads its settings, opens its input and runs the referee, and each of these can be what
it fails at.  Only the run writes to standard output, and the exit code tells whether anything
failed.  Both depend on the settings and on the octets that are read, but not on the level of the
log (`code_stdout_congr`), which decides about standard error alone.
-/
namespace KingCheck.Session

open Input (Reader)
open Output (LineSink lineOctets)
open Text (Octets)

namespace Fatal

/-- An error that is shown shows something. -/
theorem text_ne_empty (fatal : Fatal) : fatal.text ≠ "" := by
  intro h
  have hlist := congrArg String.toList h
  simp [text] at hlist

end Fatal

namespace Invocation

variable {inv other : Invocation} {config : Config}

/-! ## Where a session can fail -/

theorem transcript_of_config_error {e : ConfigError} (h : inv.config = .error e) :
    inv.transcript = inv.fail [] [] ⟨e.message, none⟩ := by
  simp only [transcript, h]

theorem transcript_of_reader_error {fatal : Fatal} (hconfig : inv.config = .ok config)
    (hreader : inv.reader config = .error fatal) :
    inv.transcript = inv.fail [] [loadedEntry config] fatal := by
  simp only [transcript, hconfig, hreader]

/-- A run that is reached decides about the exit code and standard output. -/
theorem transcript_of_run {reader : Reader} (hconfig : inv.config = .ok config)
    (hreader : inv.reader config = .ok reader) :
    inv.transcript.code = (if (refereeRun config reader).outcome.isOk then 0 else 1) ∧
      inv.transcript.stdout = (refereeRun config reader).sink.writer.written.toList := by
  simp only [transcript, hconfig, hreader]
  cases (refereeRun config reader).outcome <;> exact ⟨rfl, rfl⟩

/-- Sessions with the same settings and the same input come to the same, whatever they log. -/
theorem code_stdout_congr (hconfig : other.config = inv.config)
    (hreader : ∀ config, inv.config = .ok config → other.reader config = inv.reader config) :
    other.transcript.code = inv.transcript.code ∧
      other.transcript.stdout = inv.transcript.stdout := by
  cases hload : inv.config with
  | error e =>
    rw [transcript_of_config_error hload, transcript_of_config_error (hconfig.trans hload)]
    exact ⟨rfl, rfl⟩
  | ok config =>
    have hopen := hreader config hload
    cases hread : inv.reader config with
    | error fatal =>
      rw [transcript_of_reader_error hload hread,
        transcript_of_reader_error (hconfig.trans hload) (hopen.trans hread)]
      exact ⟨rfl, rfl⟩
    | ok reader =>
      obtain ⟨hcode, hstdout⟩ := transcript_of_run hload hread
      obtain ⟨hcode', hstdout'⟩ := transcript_of_run (hconfig.trans hload) (hopen.trans hread)
      exact ⟨hcode'.trans hcode.symm, hstdout'.trans hstdout.symm⟩

/-- If they log at the same level too, they leave the same. -/
theorem transcript_congr (hconfig : other.config = inv.config)
    (hreader : ∀ config, inv.config = .ok config → other.reader config = inv.reader config)
    (hthreshold : other.threshold = inv.threshold) : other.transcript = inv.transcript := by
  have hlog : other.logText = inv.logText := by
    funext entries
    simp only [logText, hthreshold]
  have hfail : other.fail = inv.fail := by
    funext stdout entries fatal
    simp only [fail, hlog]
  cases hload : inv.config with
  | error e => simp only [transcript, hconfig, hload, hfail]
  | ok config => simp only [transcript, hconfig, hload, hreader config hload, hfail, hlog]

/-- Without a log, standard error shows the error that ended the session, if there is one. -/
theorem stderr_eq_empty_iff (h : inv.threshold = none) :
    inv.transcript.stderr = "" ↔ inv.transcript.code = 0 := by
  have hsilent : ∀ entries, inv.logText entries = "" := by
    intro entries
    have hnone : entries.filter inv.threshold.shows = [] := by
      rw [h, List.filter_eq_nil_iff]
      exact fun _ _ => Bool.false_ne_true
    rw [logText, hnone]
    rfl
  have hfail : ∀ stdout entries fatal, (inv.fail stdout entries fatal).stderr = "" ↔
      (inv.fail stdout entries fatal).code = 0 := by
    intro stdout entries fatal
    simp [fail, hsilent, fatal.text_ne_empty]
  cases hload : inv.config with
  | error e =>
    rw [transcript_of_config_error hload]
    exact hfail _ _ _
  | ok config =>
    cases hread : inv.reader config with
    | error fatal =>
      rw [transcript_of_reader_error hload hread]
      exact hfail _ _ _
    | ok reader =>
      simp only [transcript, hload, hread]
      cases (refereeRun config reader).outcome with
      | ok summary => simp [hsilent]
      | error failure => exact hfail _ _ _

/-! ## Sessions with files of their own -/

/-- The session with these octets on standard input and these files in its directory. -/
def among (files : List (String × Octets)) (stdin : Octets) (arguments : List String)
    (environment : Environment) (assignments : String) : Invocation where
  arguments := arguments
  environment := environment
  assignments := assignments
  stdin := Reader.ofOctets stdin
  openFile := (Filesystem.around (Reader.ofOctets stdin) files).openFile

/-- The octets that are read: those of standard input, or of the file that the input names. -/
inductive Reads (files : List (String × Octets)) (stdin : Octets) : Option String → Octets → Prop
  | stdin : Reads files stdin none stdin
  | file {path : String} {bytes : Octets} (h : LeadsTo files path bytes) :
      Reads files stdin (some path) bytes

variable {files : List (String × Octets)} {stdin : Octets} {arguments : List String}
  {environment : Environment} {assignments : String}

/-- The name of a variable that gives the level of the log gives no setting. -/
theorem variableName_ne (s : Setting) : s.variableName ≠ "RUST_LOG" := by
  cases s <;> decide

/-- What is opened is read, and nothing else. -/
theorem reader_of_reads {bytes : Octets} (h : Reads files stdin config.input bytes) :
    (among files stdin arguments environment assignments).reader config =
      .ok (Reader.ofOctets bytes) := by
  rw [reader]
  generalize config.input = input at h
  cases h with
  | stdin => rfl
  | file h =>
    simp only [among, h.openFile_eq]
    rfl

theorem reader_of_leadsNowhere {path : String} (hinput : config.input = some path)
    (h : LeadsNowhere files path) :
    ∃ fatal, ∀ stdin,
      (among files stdin arguments environment assignments).reader config = .error fatal := by
  obtain ⟨text, htext⟩ := h.openFile_eq
  refine ⟨.unopened path text, fun stdin => ?_⟩
  simp only [reader, hinput, among, htext]
  rfl

/-- A path that leads to a file or nowhere leads there whatever standard input brings. -/
theorem reader_eq_of_path {path : String} (hinput : config.input = some path)
    (h : LeadsNowhere files path ∨ ∃ bytes, LeadsTo files path bytes) (stdin' : Octets) :
    (among files stdin' arguments environment assignments).reader config =
      (among files stdin arguments environment assignments).reader config := by
  rcases h with hnowhere | ⟨bytes, hfile⟩
  · obtain ⟨fatal, hfatal⟩ := reader_of_leadsNowhere hinput hnowhere
    rw [hfatal, hfatal]
  · have hreads : ∀ stdin, Reads files stdin config.input bytes := fun stdin => by
      rw [hinput]
      exact .file hfile
    rw [reader_of_reads (hreads stdin'), reader_of_reads (hreads stdin)]

/-- What is read is judged: the run on it decides about standard output and the exit code. -/
theorem transcript_of_reads {bytes : Octets}
    (hconfig : (among files stdin arguments environment assignments).config = .ok config)
    (h : Reads files stdin config.input bytes) :
    let session := among files stdin arguments environment assignments
    let run := refereeRun config (Reader.ofOctets bytes)
    session.transcript.stdout = run.sink.writer.written.toList ∧
      session.transcript.stdout = lineOctets config.output run.sent ∧
      (session.transcript.code = 0 ↔ run.outcome.isOk = true) ∧
      (session.transcript.code = 0 ∨ session.transcript.code = 1) := by
  intro session run
  obtain ⟨hcode, hstdout⟩ := transcript_of_run hconfig (reader_of_reads h)
  have hwritten : run.sink.writer.written.toList = lineOctets config.output run.sent :=
    (Referee.runsTo_run _).written_eq rfl
  refine ⟨hstdout, hstdout.trans hwritten, ?_, ?_⟩
  · rw [hcode]
    cases run.outcome.isOk <;> simp
  · rw [hcode]
    cases run.outcome.isOk <;> simp

/-- **A session is composed of its parts.**  The settings are loaded from the environment, where
what it has not set comes from the file of assignments, and from the arguments.  If they cannot be
loaded, or if the input that they name leads nowhere, then the exit code is 1 and nothing is written
to standard output.  Otherwise the referee runs on the octets of the file that they name, or of
standard input if they name none, and standard output has what the run wrote in the format that is
set: a line for each report that it sent.  The exit code is 0 if the run succeeds and 1 if not.
Where settings name an input, or are refused, standard input shows nowhere.  The level of the log,
which the variable `RUST_LOG` gives, never shows in the exit code or on standard output; without
a log, standard error is empty exactly if the exit code is 0.  The names of files lead to them, and
other names lead nowhere. -/
theorem transcript_composition {assigned : List (String × String)}
    (hassigns : Environment.Assigns assignments assigned) (files : List (String × Octets))
    (stdin : Octets) (arguments : List String) (environment : Environment) :
    let session := among files stdin arguments environment assignments
    let lookup name := (environment.lookup name).or (assigned.lookup name)
    (∀ e, Config.load lookup arguments = .error e →
      session.transcript.code = 1 ∧ session.transcript.stdout = []) ∧
    (∀ config path, Config.load lookup arguments = .ok config → config.input = some path →
      LeadsNowhere files path →
      session.transcript.code = 1 ∧ session.transcript.stdout = []) ∧
    (∀ config bytes, Config.load lookup arguments = .ok config →
      Reads files stdin config.input bytes →
      let run := Referee.run
        { source := Reader.ofOctets bytes, sink := ({ format := config.output } : LineSink),
          options := config.options }
      session.transcript.stdout = run.sink.writer.written.toList ∧
      session.transcript.stdout = lineOctets config.output run.sent ∧
      (session.transcript.code = 0 ↔ run.outcome.isOk = true) ∧
      (session.transcript.code = 0 ∨ session.transcript.code = 1)) ∧
    (∀ stdin', (∀ config, Config.load lookup arguments = .ok config →
        ∃ path, config.input = some path ∧
          (LeadsNowhere files path ∨ ∃ bytes, LeadsTo files path bytes)) →
      (among files stdin' arguments environment assignments).transcript = session.transcript) ∧
    (∀ (environment' : Environment) assignments' assigned',
      Environment.Assigns assignments' assigned' →
      (∀ name, name ≠ "RUST_LOG" →
        (environment'.lookup name).or (assigned'.lookup name) = lookup name) →
      let other := among files stdin arguments environment' assignments'
      other.transcript.code = session.transcript.code ∧
      other.transcript.stdout = session.transcript.stdout) ∧
    (∀ word, lookup "RUST_LOG" = some word → word.toLower = "off" →
      (session.transcript.stderr = "" ↔ session.transcript.code = 0)) ∧
    ((∀ file ∈ files, IsFileName file.1) → ∀ name, IsFileName name →
      (∀ bytes, files.lookup name = some bytes → LeadsTo files name bytes) ∧
      (files.lookup name = none → LeadsNowhere files name)) := by
  intro session lookup
  have hlookup : session.lookup = lookup := funext (hassigns.lookup_completedBy environment)
  have hload : session.config = Config.load lookup arguments := by rw [← hlookup]; rfl
  refine ⟨?_, ?_, ?_, ?_, ?_, ?_, ?_⟩
  · intro e he
    rw [transcript_of_config_error (hload.trans he)]
    exact ⟨rfl, rfl⟩
  · intro config path hconfig hinput hnowhere
    obtain ⟨fatal, hfatal⟩ := reader_of_leadsNowhere hinput hnowhere
    rw [transcript_of_reader_error (hload.trans hconfig) (hfatal stdin)]
    exact ⟨rfl, rfl⟩
  · intro config bytes hconfig hreads run
    exact transcript_of_reads (hload.trans hconfig) hreads
  · intro stdin' hinput
    refine transcript_congr rfl ?_ rfl
    intro config hconfig
    obtain ⟨path, hpath, hleads⟩ := hinput config (hload.symm.trans hconfig)
    exact reader_eq_of_path hpath hleads stdin'
  · intro environment' assignments' assigned' hassigns' hsame other
    refine code_stdout_congr ?_ fun _ _ => rfl
    refine Config.load_congr (fun s => ?_) arguments
    change (environment'.completedBy assignments').lookup s.variableName = session.lookup _
    rw [hassigns'.lookup_completedBy, hlookup, hsame _ (variableName_ne s)]
  · intro word hword hoff
    apply stderr_eq_empty_iff
    rw [threshold, hlookup, hword, Log.Threshold.ofSetting, hoff]
    rfl
  · intro hfiles name hname
    exact ⟨fun bytes h => leadsTo_of_lookup hfiles hname h, leadsNowhere_of_lookup hfiles hname⟩

/-- The file that `.env` names holds two kings and then a row alone.  The environment asks for text,
against `.env`, and for no log; an argument may name another file, which is not there. -/
theorem transcript_composition_rowAlone :
    let files := [("games.txt",
      (Drawing.twoKings ++ ["k"]).flatMap fun row => Text.octets (row ++ "\n"))]
    let session stdin arguments := among files (Text.octets stdin) arguments
      [("CHECK_OUTPUT", "text"), ("RUST_LOG", "OFF")] "CHECK_INPUT=games.txt\nCHECK_OUTPUT=json"
    (session "" []).transcript.stdout = Text.octets "Game #1: no king is in check.\n" ∧
    (session "" []).transcript.code = 1 ∧ (session "" []).transcript.stderr ≠ "" ∧
    (session "K" []).transcript = (session "" []).transcript ∧
    (session "" ["--input", "more.txt"]).transcript.code = 1 ∧
    (session "" ["--input", "more.txt"]).transcript.stdout = [] := by
  intro files session
  let assigned := [("CHECK_INPUT", "games.txt"), ("CHECK_OUTPUT", "json")]
  have hassigns : Environment.Assigns "CHECK_INPUT=games.txt\nCHECK_OUTPUT=json" assigned := by
    decide +kernel
  let config : Config := { input := some "games.txt" }
  let bytes := (Drawing.twoKings ++ ["k"]).flatMap fun row => Text.octets (row ++ "\n")
  have hfiles : ∀ file ∈ files, IsFileName file.1 := by decide +kernel
  obtain ⟨-, -, hrun, hstdin, -, hsilent, hnames⟩ := transcript_composition hassigns files
    (Text.octets "") [] [("CHECK_OUTPUT", "text"), ("RUST_LOG", "OFF")]
  obtain ⟨-, hunopened, -⟩ := transcript_composition hassigns files (Text.octets "")
    ["--input", "more.txt"] [("CHECK_OUTPUT", "text"), ("RUST_LOG", "OFF")]
  have hload : Config.load (fun name => (List.lookup name
      [("CHECK_OUTPUT", "text"), ("RUST_LOG", "OFF")]).or (assigned.lookup name)) [] =
        .ok config := by decide +kernel
  have hleads : LeadsTo files "games.txt" bytes :=
    (hnames hfiles "games.txt" (by decide +kernel)).1 bytes rfl
  obtain ⟨-, hlines, hcode, hcodes⟩ := hrun config bytes hload (.file hleads)
  have hfailed : (session "" []).transcript.code ≠ 0 := by
    rw [ne_eq, hcode]
    decide +kernel
  refine ⟨?_, hcodes.resolve_left hfailed, ?_, ?_, ?_⟩
  · exact hlines.trans (by decide +kernel)
  · rw [ne_eq, hsilent "OFF" rfl (by decide +kernel)]
    exact hfailed
  · refine hstdin (Text.octets "K") fun config' hconfig' => ?_
    obtain rfl : config = config' := Except.ok.inj (hload.symm.trans hconfig')
    exact ⟨"games.txt", rfl, .inr ⟨bytes, hleads⟩⟩
  · exact hunopened { input := some "more.txt" } "more.txt" (by decide +kernel) rfl
      ((hnames hfiles "more.txt" (by decide +kernel)).2 rfl)

end Invocation
end KingCheck.Session
