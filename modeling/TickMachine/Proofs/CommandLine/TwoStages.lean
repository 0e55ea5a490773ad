import TickMachine.Pipeline
import TickMachine.Proofs.Assembly.Reassembly
import TickMachine.Proofs.CommandLine.Arguments
import TickMachine.Proofs.CommandLine.Diagnostics
import TickMachine.Proofs.CommandLine.Directory
import TickMachine.Proofs.Program.PersistedExecution

/-! # The two stages of the command line

Assembling a source file into a file and running that file comes to what assembling the text and
running the executable in one go comes to. The file in between holds a descriptor, which reads back
as an executable that no run tells from the first one. -/

namespace TickMachine.CommandLine

variable {directory after : Directory} {wording : Wording} {fuel : Nat}

/-! ## Files -/

theorem fromUTF8?_toUTF8 (text : String) : String.fromUTF8? text.toUTF8 = some text := by
  simp [String.fromUTF8?, text.isValidUTF8, String.fromUTF8]

/-- The text of the file at a path. -/
def Directory.readText (directory : Directory) (path : String) : Except FileError String := do
  let bytes ← directory.read path
  match String.fromUTF8? bytes with
  | some text => .ok text
  | none => .error .notText

/-- Reading a text leaves the directory as it was. -/
theorem run_readText (directory : Directory) (path : String) :
    (Directory.access.readText path).run directory =
      pure (directory.readText path, directory) := by
  simp only [FileAccess.readText, Directory.access, StateT.run_bind, StateT.run_get,
    StateT.run_pure, pure_bind, Directory.readText]
  cases directory.read path with
  | error cause => rfl
  | ok bytes =>
    simp only [bind, Except.bind]
    cases String.fromUTF8? bytes <;> rfl

theorem readText_of_read {path text : String} (held : directory.read path = .ok text.toUTF8) :
    directory.readText path = .ok text := by
  simp only [Directory.readText, held, bind, Except.bind, fromUTF8?_toUTF8]

/-- A file that holds the bytes of a text is read as the text. -/
theorem readText_access {path text : String} (held : directory.read path = .ok text.toUTF8) :
    (Directory.access.readText path).run directory = pure (.ok text, directory) := by
  rw [run_readText, readText_of_read held]

theorem write_access {path : String} {content : ByteArray}
    (written : directory.write path content = .ok after) :
    (Directory.access.write path content).run directory = pure (.ok (), after) := by
  simp [Directory.access, written]

/-! ## Commands -/

theorem assembleFile_access {source target text : String} {executable : Executable}
    (held : directory.read source = .ok text.toUTF8) (assembled : assemble text = .ok executable)
    (written : directory.write target executable.toJson.toUTF8 = .ok after) (log : Log) :
    ∃ log', (assembleFile Directory.access source target log).run directory =
      pure ((log', .ok ""), after) := by
  have result : (Assembly.ofSource text).result = .ok executable := assembled
  simp only [assembleFile, StateT.run_bind, readText_access held, pure_bind, result,
    write_access written]
  exact ⟨_, rfl⟩

/-- Logging the steps of a run does not change its outcome. -/
theorem snd_runLogged (fuel : Nat) (log : Log) (machine : Machine) :
    (runLogged fuel log machine).map Prod.snd = machine.run fuel := by
  induction fuel generalizing log machine with
  | zero => rfl
  | succ fuel ih =>
    simp only [runLogged, Machine.run]
    cases machine.step with
    | error fault last => rfl
    | ok goesOn next =>
      cases goesOn with
      | true => exact ih _ next
      | false => rfl

theorem runFile_access {program input json text : String} {executable : Executable}
    (programHeld : directory.read program = .ok json.toUTF8)
    (described : Executable.ofJson json = .ok executable)
    (inputHeld : directory.read input = .ok text.toUTF8) (format : OutputFormat) (config : Config)
    (log : Log) :
    (runFile Directory.access wording fuel program input format config log).run directory =
      pure ((runLogged fuel (logState (Machine.load executable (inputOfText text) config) log)
        (Machine.load executable (inputOfText text) config)).map
          fun (log, outcome) => reportRun format log outcome, directory) := by
  simp only [runFile, StateT.run_bind, readText_access programHeld, pure_bind, described,
    readText_access inputHeld]
  rfl

/-! ## What a run shows -/

/-- What a command shows of a run. A run that ends well is shown in a format on the output, with
one line end behind it. A run that fails shows nothing there, and its message on the last line of
the diagnostics. -/
inductive Shows (format : OutputFormat) : Option (Except String Report) → Option Conclusion → Prop
  | unfinished : Shows format none none
  | report (report : Report) (messages : List Message) : Shows format (some (.ok report))
    (some { exit := 0, output := format.render report.output ++ "\n", messages })
  | error (message : String) (conclusion : Conclusion) (exit : conclusion.exit = 1)
    (output : conclusion.output = "")
    (last : LastLine conclusion.diagnostics ("[ERROR] " ++ message)) :
    Shows format (some (.error message)) (some conclusion)

/-- The report of a run, or the message of its fault. -/
def told (outcome : Outcome) : Except String Report := outcome.answer.mapError Fault.message

theorem shows_reportRun (format : OutputFormat) (log : Log) (outcome : Outcome) :
    Shows format (some (told outcome))
      (some (conclude (reportRun format log outcome).1 (reportRun format log outcome).2)) := by
  cases outcome with
  | ok report machine => exact .report report _
  | error fault machine =>
    exact .error fault.message _ rfl rfl (lastLine_conclude log (oneLine_message fault))

theorem shows_run (format : OutputFormat) (log : Log) (machine : Machine) :
    Shows format ((machine.run fuel).map told)
      ((runLogged fuel log machine).map fun (log, outcome) =>
        conclude (reportRun format log outcome).1 (reportRun format log outcome).2) := by
  rw [← snd_runLogged fuel log machine]
  cases runLogged fuel log machine with
  | none => exact .unfinished
  | some ended => exact shows_reportRun format ended.1 ended.2

/-- Running a source text in one go comes to running its executable with the usual configuration. -/
theorem runSource_of_assemble {source : String} {executable : Executable}
    (assembled : assemble source = .ok executable) (input : List UInt8) :
    (runSource fuel source input).map (·.mapError PipelineError.message) =
      ((Machine.load executable input {}).run fuel).map told := by
  rw [runSource, assembled, Option.map_map]
  congr 1
  funext outcome
  cases outcome <;> rfl

/-! ## Both stages -/

/-- What the two stages come to when the first one leaves a directory as another one. -/
structure TwoStages (source compiled input sourceText inputText : String)
    (executable : Executable) (directory after : Directory) : Prop where
  /-- The first stage succeeds. -/
  assembles (wording : Wording) (fuel : Nat) {arguments : List String} {level : Level} :
    Request.ofArguments arguments = .ok (.perform level (.assemble source compiled)) →
    ∃ messages, (invoke Directory.access fuel arguments wording).run directory =
      pure (some { exit := 0, messages }, after)
  /-- The second stage shows the run of the executable. -/
  runs (wording : Wording) (fuel : Nat) {arguments : List String} {level : Level}
    {format : OutputFormat} {config : Config} :
    Request.ofArguments arguments = .ok (.perform level (.run compiled input format config)) →
    ∃ conclusion?,
      (invoke Directory.access fuel arguments wording).run after = pure (conclusion?, after) ∧
      Shows format
        (((Machine.load executable (inputOfText inputText) config).run fuel).map told) conclusion?
  /-- With the usual options it shows the run of the source text. -/
  usual (wording : Wording) (fuel : Nat) {arguments : List String} {level : Level} :
    Request.ofArguments arguments = .ok (.perform level (.run compiled input .usual {})) →
    ∃ conclusion?,
      (invoke Directory.access fuel arguments wording).run after = pure (conclusion?, after) ∧
      Shows .usual ((runSource fuel sourceText (inputOfText inputText)).map
        (·.mapError PipelineError.message)) conclusion?
  /-- The arguments that ask for the first stage. -/
  assemble_spelled {arguments : List String} : Names source compiled arguments →
    Request.ofArguments ("assemble" :: arguments) =
      .ok (.perform .usual (.assemble source compiled))
  /-- The arguments that ask for the second stage, with any options. -/
  run_spelled (options : RunOptions) {arguments : List String} : options.InRange →
    Names compiled input arguments →
    Request.ofArguments ("run" :: (options.arguments ++ arguments)) =
      .ok (.perform .usual (.run compiled input options.format options.config))

theorem invoke_of_ofArguments {m : Type → Type} [Monad m] {files : FileAccess m}
    {arguments : List String} {level : Level} {command : Command}
    (asked : Request.ofArguments arguments = .ok (.perform level command)) :
    invoke files fuel arguments wording = perform files wording fuel level command := by
  rw [invoke, asked]

theorem invoke_assemble {arguments : List String} {level : Level} {source target text : String}
    {executable : Executable}
    (asked : Request.ofArguments arguments = .ok (.perform level (.assemble source target)))
    (held : directory.read source = .ok text.toUTF8) (assembled : assemble text = .ok executable)
    (written : directory.write target executable.toJson.toUTF8 = .ok after) :
    ∃ messages, (invoke Directory.access fuel arguments wording).run directory =
      pure (some { exit := 0, messages }, after) := by
  obtain ⟨log, done⟩ := assembleFile_access held assembled written (.empty level)
  refine ⟨log.messages.toList, ?_⟩
  rw [invoke_of_ofArguments asked]
  simp only [perform, StateT.run_bind, done, pure_bind]
  rfl

theorem invoke_run (wording : Wording) (fuel : Nat) {arguments : List String} {level : Level}
    {program input json text : String} {format : OutputFormat} {config : Config}
    {executable : Executable}
    (asked : Request.ofArguments arguments =
      .ok (.perform level (.run program input format config)))
    (programHeld : directory.read program = .ok json.toUTF8)
    (described : Executable.ofJson json = .ok executable)
    (inputHeld : directory.read input = .ok text.toUTF8) :
    ∃ conclusion?,
      (invoke Directory.access fuel arguments wording).run directory =
        pure (conclusion?, directory) ∧
      Shows format
        (((Machine.load executable (inputOfText text) config).run fuel).map told) conclusion? := by
  refine ⟨_, ?_, shows_run format
    (logState (Machine.load executable (inputOfText text) config) (.empty level)) _⟩
  rw [invoke_of_ofArguments asked]
  simp only [perform, StateT.run_bind, runFile_access programHeld described inputHeld, pure_bind,
    StateT.run_pure, Option.map_map]
  rfl

/-- An executable that has been written and read back runs in the same way. -/
theorem run_persisted_told (executable : Executable) (input : List UInt8) (config : Config) :
    ((Machine.load executable.persisted input config).run fuel).map told =
      ((Machine.load executable input config).run fuel).map told := by
  have same := congrArg (Option.map (Except.mapError Fault.message))
    (executable.interchangeable_persisted.runs input config fuel)
  rwa [Option.map_map, Option.map_map] at same

/-- The two stages of the command line compute what the library computes. A source file is
assembled into a file that can be written and is not the input file. Then the first stage succeeds,
and the second one, with any options, shows what the run of the executable gives: its report on the
output, or its fault on the last line of the diagnostics. The start of the executable is an address
of 64 bits. -/
theorem two_stages_agree {directory : Directory}
    {source compiled input sourceText inputText : String} {executable : Executable}
    (sourceHeld : directory.read source = .ok sourceText.toUTF8)
    (inputHeld : directory.read input = .ok inputText.toUTF8)
    (writable : directory.Writable compiled)
    (apart : directory.file? compiled ≠ directory.file? input)
    (assembled : assemble sourceText = .ok executable)
    (addressable : executable.start < UInt64.size) :
    ∃ after, TwoStages source compiled input sourceText inputText executable directory after := by
  obtain ⟨after, written⟩ := Directory.exists_write writable executable.toJson.toUTF8
  have compiledHeld := Directory.read_of_write written
  have inputStays := Directory.read_of_write_other written apart inputHeld
  have described := executable.ofJson_toJson addressable
  have sourceNamed := Directory.ne_empty_of_read sourceHeld
  have compiledNamed := Directory.ne_empty_of_writable writable
  have inputNamed := Directory.ne_empty_of_read inputHeld
  refine ⟨after, ?_, ?_, ?_, ?_, ?_⟩
  · intro wording fuel arguments level asked
    exact invoke_assemble asked sourceHeld assembled written
  · intro wording fuel arguments level format config asked
    have shown := invoke_run wording fuel asked compiledHeld described inputStays
    rwa [run_persisted_told] at shown
  · intro wording fuel arguments level asked
    have shown := invoke_run wording fuel asked compiledHeld described inputStays
    rwa [run_persisted_told, ← runSource_of_assemble assembled] at shown
  · intro arguments names
    exact ofArguments_assemble names sourceNamed compiledNamed
  · intro options arguments inRange names
    exact ofArguments_run inRange names compiledNamed inputNamed

/-- A program that sends a byte and halts is assembled. One run of it shows the byte, and another
one reaches its limit at once. -/
theorem two_stages_agree_bytes :
    let directory : Directory :=
      ⟨[("a.asm", "_start:\nOUT %R0\nHLT".toUTF8), ("b.txt", "".toUTF8)]⟩
    ∃ after before behind failed,
      (invoke Directory.access 2 ["assemble", "a.asm", "c.json"]).run directory =
        pure (some { exit := 0, messages := before }, after) ∧
      (invoke Directory.access 2 ["run", "-O", "bytes", "c.json", "b.txt"]).run after =
        pure (some { exit := 0, output := "0\n", messages := behind }, after) ∧
      (invoke Directory.access 2 ["run", "--step-limit", "0", "--", "c.json", "b.txt"]).run after =
        pure (some failed, after) ∧
      failed.exit = 1 ∧ failed.output = "" ∧
      LastLine failed.diagnostics "[ERROR] step limit of 0 instructions exceeded" := by
  intro directory
  have written : Executable.sourceText ⟨0, [.command 15 [0], .command 22 []]⟩ =
      .ok "_start:\nOUT %R0\nHLT" := by
    cbv
  have assembled := (assemble_sourceText (Nat.zero_le _) written).1
  have sourceHeld : directory.read "a.asm" = .ok "_start:\nOUT %R0\nHLT".toUTF8 := by
    rfl
  have inputHeld : directory.read "b.txt" = .ok "".toUTF8 := by
    rfl
  have writable : directory.Writable "c.json" := ⟨.empty, _, rfl⟩
  have apart : directory.file? "c.json" ≠ directory.file? "b.txt" := by
    decide +kernel
  obtain ⟨after, stages⟩ :=
    two_stages_agree sourceHeld inputHeld writable apart assembled (by decide)
  obtain ⟨before, assembles⟩ := stages.assembles .plain 2 (stages.assemble_spelled (.plain rfl rfl))
  obtain ⟨conclusion?, runs, shows⟩ := stages.runs .plain 2
    (stages.run_spelled { format? := some .bytes } ⟨by simp, by simp⟩ (.plain rfl rfl))
  obtain ⟨limited?, stops, tells⟩ := stages.runs .plain 2
    (stages.run_spelled { stepLimit? := some 0 } ⟨by simp, by simp⟩ .escaped)
  have shown : Shows .bytes (some (.ok ⟨[0], 1, 1, true⟩)) conclusion? := shows
  have refused : Shows .usual (some (.error "step limit of 0 instructions exceeded")) limited? :=
    tells
  cases shown with
  | report report behind =>
    cases refused with
    | error message failed exit output last =>
      exact ⟨after, before, behind, failed, assembles, runs, stops, exit, output, last⟩

end TickMachine.CommandLine
