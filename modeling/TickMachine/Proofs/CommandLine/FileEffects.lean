import TickMachine.Proofs.CommandLine.TwoStages

/-! # Effects on files

What an invocation does to the files, with the reason why it fails if it does. Everything that can
fail comes before the one file is written, and before anything is printed: a command that fails
leaves the directory as it was. -/

namespace TickMachine.CommandLine

/-! ## Reasons -/

/-- Why the source in one file is not assembled into another file. -/
inductive NotAssembled (directory : Directory) (source target : String) : CommandError → Prop
  | unreadable {cause : FileError} (failed : directory.readText source = .error cause) :
    NotAssembled directory source target (.unreadable "assembly file" source cause)
  | refused {text : String} {cause : AssemblyError} (held : directory.readText source = .ok text)
      (failed : assemble text = .error cause) :
    NotAssembled directory source target (.refused cause)
  | unwritable {text : String} {executable : Executable} {cause : FileError}
      (held : directory.readText source = .ok text) (assembled : assemble text = .ok executable)
      (failed : directory.write target executable.toJson.toUTF8 = .error cause) :
    NotAssembled directory source target (.unwritable target cause)

/-- The machine that runs the program in one file on the input in another file. -/
inductive Loads (directory : Directory) (program input : String) (config : Config) : Machine → Prop
  | load {json text : String} {executable : Executable}
      (held : directory.readText program = .ok json)
      (described : Executable.ofJson json = .ok executable)
      (inputHeld : directory.readText input = .ok text) :
    Loads directory program input config (Machine.load executable (inputOfText text) config)

/-- Why the program in one file does not run to its end on the input in another file. -/
inductive NotRun (wording : Wording) (directory : Directory) (fuel : Nat) (program input : String)
    (config : Config) : CommandError → Prop
  | unreadable {cause : FileError} (failed : directory.readText program = .error cause) :
    NotRun wording directory fuel program input config
      (.unreadable "compiled program" program cause)
  | malformed {json : String} {failure : Json.Failure}
      (held : directory.readText program = .ok json)
      (failed : Executable.ofJson json = .error failure) :
    NotRun wording directory fuel program input config
      (.malformed program ⟨failure, wording.json json failure⟩)
  | noInput {json : String} {executable : Executable} {cause : FileError}
      (held : directory.readText program = .ok json)
      (described : Executable.ofJson json = .ok executable)
      (failed : directory.readText input = .error cause) :
    NotRun wording directory fuel program input config (.unreadable "input file" input cause)
  | fault {machine last : Machine} {fault : Fault}
      (loads : Loads directory program input config machine)
      (failed : machine.run fuel = some (.error fault last)) :
    NotRun wording directory fuel program input config (.fault fault)

/-! ## Effects -/

/-- A failed command exits with 1 and prints nothing. Its error is its last message. -/
structure Fails (error : CommandError) (conclusion : Conclusion) : Prop where
  exit : conclusion.exit = 1
  output : conclusion.output = ""
  message : conclusion.messages.getLast? = some ⟨.error, error.message⟩

/-- One file has a content, and every other file is as before. -/
structure Replaces (file : String) (content : ByteArray) (before after : Directory) : Prop where
  content : after.find? file = some content
  others : ∀ other, other ≠ file → after.find? other = before.find? other

/-- The file at a path holds the descriptor of an executable, which reads back. The start of the
executable is an address of 64 bits. -/
structure Describes (directory : Directory) (path : String) (executable : Executable) : Prop where
  held : directory.readText path = .ok executable.toJson
  readsBack : executable.start < UInt64.size →
    Executable.ofJson executable.toJson = .ok executable.persisted

/-- What assembling one file into another one leaves behind. A failure leaves the directory as it
was. -/
inductive Assembles (directory : Directory) (source target : String) :
    Conclusion → Directory → Prop
  | failed {error : CommandError} {conclusion : Conclusion}
      (reason : NotAssembled directory source target error) (fails : Fails error conclusion) :
    Assembles directory source target conclusion directory
  | succeeded {text file : String} {executable : Executable} {conclusion : Conclusion}
      {after : Directory} (held : directory.readText source = .ok text)
      (assembled : assemble text = .ok executable) (leads : directory.file? target = some file)
      (replaces : Replaces file executable.toJson.toUTF8 directory after)
      (describes : Describes after target executable)
      (exit : conclusion.exit = 0) (output : conclusion.output = "") :
    Assembles directory source target conclusion after

/-- What running the program in one file on the input in another one comes to. There is no
conclusion where the run takes more steps than it is given. -/
inductive Runs (wording : Wording) (directory : Directory) (fuel : Nat) (program input : String)
    (format : OutputFormat) (config : Config) : Option Conclusion → Prop
  | failed {error : CommandError} {conclusion : Conclusion}
      (reason : NotRun wording directory fuel program input config error)
      (fails : Fails error conclusion) :
    Runs wording directory fuel program input format config (some conclusion)
  | ended {machine last : Machine} {report : Report} {conclusion : Conclusion}
      (loads : Loads directory program input config machine)
      (ended : machine.run fuel = some (.ok report last)) (exit : conclusion.exit = 0)
      (output : conclusion.output = format.render report.output ++ "\n") :
    Runs wording directory fuel program input format config (some conclusion)
  | unfinished {machine : Machine} (loads : Loads directory program input config machine)
      (goesOn : machine.run fuel = none) :
    Runs wording directory fuel program input format config none

/-- What an invocation leaves behind of a directory. -/
inductive Effect (wording : Wording) (directory : Directory) (fuel : Nat) :
    Except UsageError Request → Option Conclusion → Directory → Prop
  | usage {error : UsageError} {conclusion : Conclusion} (exit : conclusion.exit = 2)
      (output : conclusion.output = "") :
    Effect wording directory fuel (.error error) (some conclusion) directory
  | help {conclusion : Conclusion} (exit : conclusion.exit = 0) :
    Effect wording directory fuel (.ok .help) (some conclusion) directory
  | version {dated : Bool} {conclusion : Conclusion} (exit : conclusion.exit = 0) :
    Effect wording directory fuel (.ok (.version dated)) (some conclusion) directory
  | assemble {level : Level} {source target : String} {conclusion : Conclusion} {after : Directory}
      (assembles : Assembles directory source target conclusion after) :
    Effect wording directory fuel (.ok (.perform level (.assemble source target)))
      (some conclusion) after
  | run {level : Level} {program input : String} {format : OutputFormat} {config : Config}
      {conclusion? : Option Conclusion}
      (runs : Runs wording directory fuel program input format config conclusion?) :
    Effect wording directory fuel (.ok (.perform level (.run program input format config)))
      conclusion? directory

/-! ## Files -/

variable {directory : Directory} {path : String}

/-- Writing that fails leaves the directory as it was. -/
theorem run_write_error {content : ByteArray} {cause : FileError}
    (failed : directory.write path content = .error cause) :
    (Directory.access.write path content).run directory = pure (.error cause, directory) := by
  simp [Directory.access, failed]

theorem replaces_of_write {after : Directory} {content : ByteArray}
    (written : directory.write path content = .ok after) :
    ∃ file, directory.file? path = some file ∧ Replaces file content directory after := by
  obtain ⟨place, location, name, found, located, -, -, rfl⟩ := Directory.write_ok written
  refine ⟨_, Directory.file?_of_located located, ?_, ?_⟩
  · rw [Directory.find?_put, if_pos rfl]
  · intro other differs
    rw [Directory.find?_put, if_neg differs]

theorem describes_of_write {after : Directory} {executable : Executable}
    (written : directory.write path executable.toJson.toUTF8 = .ok after) :
    Describes after path executable where
  held := readText_of_read (Directory.read_of_write written)
  readsBack := executable.ofJson_toJson

/-! ## Commands -/

theorem fails_conclude (log : Log) (error : CommandError) :
    Fails error (conclude log (.error error)) where
  exit := rfl
  output := rfl
  message := by
    simp only [conclude, messages_add_error, List.getLast?_concat]

variable (wording : Wording) (directory : Directory) (fuel : Nat) (level : Level)

theorem perform_assemble (source target : String) :
    ∃ conclusion after,
      (perform Directory.access wording fuel level (.assemble source target)).run directory =
        pure (some conclusion, after) ∧
      Assembles directory source target conclusion after := by
  simp only [perform, assembleFile, StateT.run_bind, run_readText, pure_bind]
  cases held : directory.readText source with
  | error cause => exact ⟨_, _, rfl, .failed (.unreadable held) (fails_conclude _ _)⟩
  | ok text =>
    simp only
    cases assembled : (Assembly.ofSource text).result with
    | error cause => exact ⟨_, _, rfl, .failed (.refused held assembled) (fails_conclude _ _)⟩
    | ok executable =>
      simp only [StateT.run_bind]
      cases written : directory.write target executable.toJson.toUTF8 with
      | error cause =>
        rw [run_write_error written]
        exact ⟨_, _, rfl, .failed (.unwritable held assembled written) (fails_conclude _ _)⟩
      | ok after =>
        rw [write_access written]
        obtain ⟨file, leads, replaces⟩ := replaces_of_write written
        exact ⟨_, _, rfl, .succeeded held assembled leads replaces (describes_of_write written)
          rfl rfl⟩

/-- The conclusion of a run, whatever has been logged before. -/
theorem runs_of_loads {program input : String} {config : Config} {machine : Machine}
    (loads : Loads directory program input config machine) (format : OutputFormat) (log : Log) :
    Runs wording directory fuel program input format config
      ((runLogged fuel log machine).map fun (log, outcome) =>
        conclude (reportRun format log outcome).1 (reportRun format log outcome).2) := by
  have ran := snd_runLogged fuel log machine
  cases logged : runLogged fuel log machine with
  | none =>
    rw [logged, Option.map_none] at ran
    exact .unfinished loads ran.symm
  | some ended =>
    obtain ⟨log, outcome⟩ := ended
    rw [logged, Option.map_some] at ran
    cases outcome with
    | error fault last => exact .failed (.fault loads ran.symm) (fails_conclude log (.fault fault))
    | ok report last => exact .ended loads ran.symm rfl rfl

theorem perform_run (program input : String) (format : OutputFormat) (config : Config) :
    ∃ conclusion?,
      (perform Directory.access wording fuel level (.run program input format config)).run
        directory = pure (conclusion?, directory) ∧
      Runs wording directory fuel program input format config conclusion? := by
  simp only [perform, runFile, StateT.run_bind, run_readText, pure_bind]
  cases held : directory.readText program with
  | error cause => exact ⟨_, rfl, .failed (.unreadable held) (fails_conclude _ _)⟩
  | ok json =>
    simp only
    cases described : Executable.ofJson json with
    | error failure => exact ⟨_, rfl, .failed (.malformed held described) (fails_conclude _ _)⟩
    | ok executable =>
      simp only [StateT.run_bind, run_readText, pure_bind]
      cases inputHeld : directory.readText input with
      | error cause =>
        exact ⟨_, rfl, .failed (.noInput held described inputHeld) (fails_conclude _ _)⟩
      | ok text =>
        simp only [StateT.run_pure, pure_bind, Option.map_map]
        exact ⟨_, rfl,
          runs_of_loads wording directory fuel (.load held described inputHeld) format _⟩

/-- What an invocation leaves behind is what its arguments ask for. -/
theorem effect_invoke (arguments : List String) :
    ∃ conclusion? after,
      (invoke Directory.access fuel arguments wording).run directory =
        pure (conclusion?, after) ∧
      Effect wording directory fuel (Request.ofArguments arguments) conclusion? after := by
  unfold invoke
  cases Request.ofArguments arguments with
  | error error => exact ⟨_, _, rfl, .usage rfl rfl⟩
  | ok request =>
    cases request with
    | help => exact ⟨_, _, rfl, .help rfl⟩
    | version dated => exact ⟨_, _, rfl, .version rfl⟩
    | perform level command =>
      cases command with
      | assemble source target =>
        obtain ⟨conclusion, after, ran, assembles⟩ :=
          perform_assemble wording directory fuel level source target
        exact ⟨some conclusion, after, ran, .assemble assembles⟩
      | run program input format config =>
        obtain ⟨conclusion?, ran, runs⟩ :=
          perform_run wording directory fuel level program input format config
        exact ⟨conclusion?, directory, ran, .run runs⟩

/-! ## The endings of given files -/

section

variable {wording directory fuel} {source target program input text json : String}
  {config : Config} {conclusion : Conclusion} {after : Directory}

/-- A file at another place holds its text as before. -/
theorem Replaces.readText {file : String} {content : ByteArray}
    (replaces : Replaces file content directory after) {path other : String}
    (leads : directory.file? path = some other) (apart : other ≠ file)
    (held : directory.readText path = .ok text) : after.readText path = .ok text := by
  obtain ⟨bytes, read, decoded⟩ := bind_ok held
  have there := Directory.read_of_find?_eq leads (replaces.others other apart) read
  rw [Directory.readText, there]
  exact decoded

/-- A source with an error is refused, and a target that is there stays as it is. -/
theorem Assembles.of_error {cause : AssemblyError} (held : directory.readText source = .ok text)
    (refused : assemble text = .error cause)
    (assembles : Assembles directory source target conclusion after) :
    after = directory ∧ Fails (.refused cause) conclusion := by
  cases assembles with
  | failed reason fails =>
    refine ⟨rfl, ?_⟩
    cases reason with
    | unreadable failed => cases held.symm.trans failed
    | refused held' failed =>
      cases held.symm.trans held'
      cases refused.symm.trans failed
      exact fails
    | unwritable held' assembled =>
      cases held.symm.trans held'
      cases refused.symm.trans assembled
  | succeeded held' assembled =>
    cases held.symm.trans held'
    cases refused.symm.trans assembled

/-- A source that assembles replaces a target that can be written. -/
theorem Assembles.of_ok {executable : Executable} {file : String}
    (held : directory.readText source = .ok text) (assembled : assemble text = .ok executable)
    (writable : directory.Writable target) (leads : directory.file? target = some file)
    (assembles : Assembles directory source target conclusion after) :
    conclusion.exit = 0 ∧ conclusion.output = "" ∧
      Replaces file executable.toJson.toUTF8 directory after ∧
      Describes after target executable := by
  cases assembles with
  | failed reason =>
    exfalso
    cases reason with
    | unreadable failed => cases held.symm.trans failed
    | refused held' failed =>
      cases held.symm.trans held'
      cases assembled.symm.trans failed
    | unwritable held' assembled' failed =>
      obtain ⟨after, written⟩ := Directory.exists_write writable _
      cases written.symm.trans failed
  | succeeded held' assembled' leads' replaces describes exit output =>
    cases held.symm.trans held'
    cases assembled.symm.trans assembled'
    cases leads.symm.trans leads'
    exact ⟨exit, output, replaces, describes⟩

theorem Loads.unique {machine other : Machine}
    (loads : Loads directory program input config machine)
    (loads' : Loads directory program input config other) : machine = other := by
  obtain ⟨held, described, inputHeld⟩ := loads
  obtain ⟨held', described', inputHeld'⟩ := loads'
  cases held.symm.trans held'
  cases described.symm.trans described'
  cases inputHeld.symm.trans inputHeld'
  rfl

/-- A file that holds no program does not run. -/
theorem Runs.of_malformed {format : OutputFormat} {conclusion? : Option Conclusion}
    {failure : Json.Failure} (held : directory.readText program = .ok json)
    (malformed : Executable.ofJson json = .error failure)
    (runs : Runs wording directory fuel program input format config conclusion?) :
    ∃ conclusion, conclusion? = some conclusion ∧
      Fails (.malformed program ⟨failure, wording.json json failure⟩) conclusion := by
  have unloaded {machine : Machine} : ¬Loads directory program input config machine := by
    rintro ⟨held', described⟩
    cases held.symm.trans held'
    cases malformed.symm.trans described
  cases runs with
  | failed reason fails =>
    refine ⟨_, rfl, ?_⟩
    cases reason with
    | unreadable failed => cases held.symm.trans failed
    | malformed held' failed =>
      cases held.symm.trans held'
      cases malformed.symm.trans failed
      exact fails
    | noInput held' described =>
      cases held.symm.trans held'
      cases malformed.symm.trans described
    | fault loads => exact absurd loads unloaded
  | ended loads => exact absurd loads unloaded
  | unfinished loads => exact absurd loads unloaded

/-- A run that fails shows nothing of what it has sent. -/
theorem Runs.of_fault {format : OutputFormat} {conclusion? : Option Conclusion}
    {machine last : Machine} {fault : Fault} (loads : Loads directory program input config machine)
    (failed : machine.run fuel = some (.error fault last))
    (runs : Runs wording directory fuel program input format config conclusion?) :
    ∃ conclusion, conclusion? = some conclusion ∧ Fails (.fault fault) conclusion := by
  cases runs with
  | failed reason fails =>
    refine ⟨_, rfl, ?_⟩
    cases reason with
    | fault loads' failed' =>
      cases loads.unique loads'
      cases failed.symm.trans failed'
      exact fails
    | unreadable failed' =>
      obtain ⟨held, -, -⟩ := loads
      cases held.symm.trans failed'
    | malformed held' failed' =>
      obtain ⟨held, described, -⟩ := loads
      cases held.symm.trans held'
      cases described.symm.trans failed'
    | noInput held' described' failed' =>
      obtain ⟨-, -, inputHeld⟩ := loads
      cases inputHeld.symm.trans failed'
  | ended loads' ended =>
    cases loads.unique loads'
    cases failed.symm.trans ended
  | unfinished loads' goesOn =>
    cases loads.unique loads'
    cases failed.symm.trans goesOn

end

/-! ## Files change only on success -/

/-- Files change only where a command succeeds. Of all invocations, with any arguments and in any
directory, only one that has assembled a source changes a file: it gives the target file the
descriptor of the executable, from which it can be read back, and exits with 0. All others leave
the directory as it was, and a command that fails exits with 1 and prints nothing. So do the command
lines that name two files, with any options: the one that asks to assemble has one of the two
endings, and the one that asks to run has changed nothing. -/
theorem files_change_only_on_success (wording : Wording) (directory : Directory) (fuel : Nat) :
    (∀ arguments, ∃ conclusion? after,
      (invoke Directory.access fuel arguments wording).run directory =
        pure (conclusion?, after) ∧
      Effect wording directory fuel (Request.ofArguments arguments) conclusion? after) ∧
    (∀ (level? : Option Level) (source target : String) (arguments : List String),
      source ≠ "" → target ≠ "" → Names source target arguments →
      ∃ conclusion after,
        (invoke Directory.access fuel (withLevel level? ("assemble" :: arguments)) wording).run
          directory = pure (some conclusion, after) ∧
        Assembles directory source target conclusion after) ∧
    ∀ (level? : Option Level) (options : RunOptions) (program input : String)
      (arguments : List String), options.InRange → program ≠ "" → input ≠ "" →
      Names program input arguments →
      ∃ conclusion?,
        (invoke Directory.access fuel
          (withLevel level? ("run" :: (options.arguments ++ arguments))) wording).run directory =
          pure (conclusion?, directory) ∧
        Runs wording directory fuel program input options.format options.config conclusion? := by
  refine ⟨effect_invoke wording directory fuel, ?assembling, ?running⟩
  case assembling =>
    intro level? source target arguments sourceNamed targetNamed names
    have asked := ofArguments_withLevel level? ("assemble" :: arguments)
    rw [readRequest_assemble level? names sourceNamed targetNamed] at asked
    rw [invoke_of_ofArguments asked]
    exact perform_assemble wording directory fuel _ source target
  case running =>
    intro level? options program input arguments inRange programNamed inputNamed names
    have asked := ofArguments_withLevel level? ("run" :: (options.arguments ++ arguments))
    rw [readRequest_run level? inRange names programNamed inputNamed] at asked
    rw [invoke_of_ofArguments asked]
    exact perform_run wording directory fuel _ program input options.format options.config

/-- A directory that holds a target from before. A source with a label that is defined nowhere
leaves it as it is, and it cannot be run, since it holds no program. A source that assembles
replaces it. The program then sends a byte, reads past the end of its input, and shows nothing. -/
theorem files_change_only_on_success_existing :
    let directory : Directory :=
      ⟨[("bad.asm", "_start:\nBEQ %R0, %R0, away".toUTF8),
        ("good.asm", "_start:\nOUT %R0\nIN %R1\nIN %R1".toUTF8),
        ("c.json", "[0]".toUTF8), ("b.txt", "".toUTF8)]⟩
    let executable : Executable := ⟨0, [.command 15 [0], .command 14 [1], .command 14 [1]]⟩
    ∃ refused malformed assembled after failed,
      (invoke Directory.access 9 ["assemble", "bad.asm", "c.json"]).run directory =
        pure (some refused, directory) ∧
      Fails (.refused (.undefinedLabel "away")) refused ∧
      (invoke Directory.access 9 ["run", "c.json", "b.txt"]).run directory =
        pure (some malformed, directory) ∧
      Fails (.malformed "c.json" ⟨.mismatched, Wording.plain.json "[0]" .mismatched⟩) malformed ∧
      (invoke Directory.access 9 ["--log-level", "ERROR", "assemble", "good.asm", "c.json"]).run
        directory = pure (some assembled, after) ∧
      assembled.exit = 0 ∧ assembled.output = "" ∧
      Replaces "c.json" executable.toJson.toUTF8 directory after ∧
      (invoke Directory.access 9 ["run", "-O", "bytes", "--", "c.json", "b.txt"]).run after =
        pure (some failed, after) ∧
      Fails (.fault .inputExhausted) failed := by
  have exhausted : ∃ last, (Machine.load (Executable.persisted
      ⟨0, [.command 15 [0], .command 14 [1], .command 14 [1]]⟩) [0] {}).run 9 =
        some (.error .inputExhausted last) := ⟨_, by rfl⟩
  intro directory executable
  have lexed : lex "_start:\nBEQ %R0, %R0, away" = .ok
      [⟨.label, "_start", 0⟩, ⟨.instruction, "BEQ", 8⟩, ⟨.register, "R0", 12⟩,
        ⟨.register, "R0", 17⟩, ⟨.reference, "away", 22⟩] :=
    Lexer.lex_of_finishWithin 40 (by decide +kernel)
  have undefined : assemble "_start:\nBEQ %R0, %R0, away" = .error (.undefinedLabel "away") := by
    simp only [assemble, Assembly.ofSource, lexed, Assembly.ofTokens]
    rw [Draft.extend_cons rfl rfl, Draft.extend_cons rfl rfl, Draft.extend_nil]
    rfl
  have written : executable.sourceText = .ok "_start:\nOUT %R0\nIN %R1\nIN %R1" := by
    cbv
  have defined := (assemble_sourceText (Nat.zero_le _) written).1
  have badHeld : directory.readText "bad.asm" = .ok "_start:\nBEQ %R0, %R0, away" :=
    readText_of_read rfl
  have goodHeld : directory.readText "good.asm" = .ok "_start:\nOUT %R0\nIN %R1\nIN %R1" :=
    readText_of_read rfl
  have targetHeld : directory.readText "c.json" = .ok "[0]" := readText_of_read rfl
  have inputHeld : directory.readText "b.txt" = .ok "" := readText_of_read rfl
  obtain ⟨-, assembles, runs⟩ := files_change_only_on_success .plain directory 9
  -- the target stays as it is
  obtain ⟨refused, same, refuses, bad⟩ := assembles none "bad.asm" "c.json" ["bad.asm", "c.json"]
    (by decide) (by decide) (.plain rfl rfl)
  obtain ⟨rfl, refusedFails⟩ := bad.of_error badHeld undefined
  -- it holds no program
  have noProgram : Executable.ofJson "[0]" = .error .mismatched := rfl
  obtain ⟨malformed?, malforms, unread⟩ := runs none {} "c.json" "b.txt" ["c.json", "b.txt"]
    ⟨by simp, by simp⟩ (by decide) (by decide) (.plain rfl rfl)
  obtain ⟨malformed, rfl, malformedFails⟩ := unread.of_malformed targetHeld noProgram
  -- another source takes its place
  obtain ⟨assembled, after, succeeds, good⟩ := assembles (some .error) "good.asm" "c.json"
    ["good.asm", "c.json"] (by decide) (by decide) (.plain rfl rfl)
  obtain ⟨exit, output, replaces, describes⟩ := good.of_ok goodHeld defined ⟨.empty, _, rfl⟩ rfl
  -- the run fails behind a byte that has been sent
  obtain ⟨-, -, runsAfter⟩ := files_change_only_on_success .plain after 9
  obtain ⟨failed?, fails, ran⟩ := runsAfter none { format? := some .bytes } "c.json" "b.txt"
    ["--", "c.json", "b.txt"] ⟨by simp, by simp⟩ (by decide) (by decide) .escaped
  have inputStays : after.readText "b.txt" = .ok "" :=
    replaces.readText rfl (by decide) inputHeld
  have loads : Loads after "c.json" "b.txt" {} (Machine.load executable.persisted [0] {}) := by
    have input : inputOfText "" = [0] := by decide +kernel
    rw [← input]
    exact .load describes.held (describes.readsBack (by decide)) inputStays
  obtain ⟨last, exhausted⟩ := exhausted
  obtain ⟨failed, rfl, faultFails⟩ := ran.of_fault loads exhausted
  exact ⟨refused, malformed, assembled, after, failed, refuses, refusedFails, malforms,
    malformedFails, succeeds, exit, output, replaces, fails, faultFails⟩

end TickMachine.CommandLine
