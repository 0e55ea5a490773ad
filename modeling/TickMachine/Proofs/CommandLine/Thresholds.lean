import TickMachine.Proofs.CommandLine.TwoStages

/-! # Thresholds

The threshold of a log drops messages and does nothing else. Raising it before a command is
performed comes to raising it afterwards, in every function that logs: none of them reads the
messages, and what the threshold spares them to compute would only have been dropped. -/

namespace TickMachine

/-! ## Raised logs -/

theorem Level.le_iff {a b : Level} : a ≤ b ↔ a.rank ≤ b.rank := Iff.rfl

namespace Log

/-- The log that has had a threshold as well, from its first message on. -/
def raise (threshold : Level) (log : Log) : Log where
  threshold := if log.threshold ≤ threshold then threshold else log.threshold
  messages := log.messages.filter (threshold ≤ ·.level)

variable {threshold level : Level} {log : Log}

theorem threshold_raise_le :
    (log.raise threshold).threshold ≤ level ↔ log.threshold ≤ level ∧ threshold ≤ level := by
  unfold raise
  simp only [Level.le_iff]
  split <;> omega

theorem toList_messages_raise :
    (log.raise threshold).messages.toList = log.messages.toList.filter (threshold ≤ ·.level) :=
  Array.toList_filter

theorem raise_empty {less greater : Level} (ordered : less ≤ greater) :
    (empty less).raise greater = empty greater := by
  simp [raise, empty, ordered]

/-- A message is dropped by a raised threshold when it is added, or afterwards. -/
theorem add_raise (threshold : Level) (log : Log) (level : Level) (text : Unit → String) :
    (log.raise threshold).add level text = (log.add level text).raise threshold := by
  by_cases kept : log.threshold ≤ level
  · by_cases stays : threshold ≤ level
    · rw [add, if_pos (threshold_raise_le.2 ⟨kept, stays⟩), add, if_pos kept]
      simp [raise, stays]
    · have dropped : ¬(log.raise threshold).threshold ≤ level := by
        intro le
        exact stays (threshold_raise_le.1 le).2
      rw [add, if_neg dropped, add, if_pos kept]
      simp [raise, stays]
  · have dropped : ¬(log.raise threshold).threshold ≤ level := by
      intro le
      exact kept (threshold_raise_le.1 le).1
    rw [add, if_neg dropped, add, if_neg kept]

end Log

namespace CommandLine

/-! ## Functions that log -/

section

variable (threshold : Level) (log : Log)

theorem logLabels_raise (labels : LabelTable) :
    logLabels labels (log.raise threshold) = (logLabels labels log).raise threshold :=
  List.foldl_hom (Log.raise threshold) fun log _ => Log.add_raise threshold log ..

theorem logAddresses_raise (labels : LabelTable) :
    logAddresses labels (log.raise threshold) = (logAddresses labels log).raise threshold :=
  List.foldl_hom (Log.raise threshold) fun log _ => Log.add_raise threshold log ..

theorem logAssembled_raise (executable : Executable) (labels : LabelTable) :
    logAssembled executable labels (log.raise threshold) =
      (logAssembled executable labels log).raise threshold :=
  Log.add_raise ..

theorem logListing_raise (source : String) (executable : Executable) (labels : LabelTable) :
    logListing source executable labels (log.raise threshold) =
      (logListing source executable labels log).raise threshold := by
  simp only [logListing, Log.add_raise, logAddresses_raise]

theorem logState_raise (machine : Machine) :
    logState machine (log.raise threshold) = (logState machine log).raise threshold :=
  Log.add_raise ..

/-- An event that is not looked for would have been dropped. -/
theorem logEvent_pendingEvent (machine : Machine) :
    logEvent (pendingEvent log machine) log = logEvent machine.event? log := by
  by_cases kept : log.threshold ≤ .debug
  · rw [pendingEvent, if_pos kept]
  · rw [pendingEvent, if_neg kept]
    cases machine.event? with
    | none => rfl
    | some event => rw [logEvent, logEvent, Log.add, if_neg kept]

theorem logEvent_raise (event : Option Event) :
    logEvent event (log.raise threshold) = (logEvent event log).raise threshold := by
  cases event with
  | none => rfl
  | some event => exact Log.add_raise threshold log .debug fun _ => event.message

/-- The steps of a run are logged in the same way under a raised threshold. -/
theorem runLogged_raise (fuel : Nat) (machine : Machine) :
    runLogged fuel (log.raise threshold) machine =
      (runLogged fuel log machine).map fun (log, outcome) => (log.raise threshold, outcome) := by
  induction fuel generalizing log machine with
  | zero => rfl
  | succ fuel ih =>
    simp only [runLogged, logEvent_pendingEvent]
    simp only [logEvent_raise, logState_raise]
    cases machine.step with
    | error fault last => rfl
    | ok goesOn next =>
      cases goesOn with
      | true => exact ih _ next
      | false => rfl

theorem reportRun_raise (format : OutputFormat) (outcome : Outcome) :
    reportRun format (log.raise threshold) outcome =
      ((reportRun format log outcome).1.raise threshold, (reportRun format log outcome).2) := by
  cases outcome with
  | error fault machine => rfl
  | ok report machine =>
    simp only [reportRun, Log.add_raise]
    by_cases halted : report.halted = true
    · simp only [if_pos halted, Log.add_raise]
    · simp only [if_neg halted, Log.add_raise]

end

/-! ## Commands -/

section

variable {m : Type → Type} [Monad m] [LawfulMonad m] (threshold : Level) (files : FileAccess m)
  (wording : Wording) (log : Log)

theorem assembleFile_raise (source target : String) :
    assembleFile files source target (log.raise threshold) =
      (fun (log, result) => (log.raise threshold, result)) <$>
        assembleFile files source target log := by
  unfold assembleFile
  rw [map_bind]
  apply bind_congr
  intro read
  cases read with
  | error cause => simp only [map_pure]
  | ok text =>
    simp only [logLabels_raise, logAssembled_raise]
    cases (Assembly.ofSource text).result with
    | error cause => simp only [map_pure]
    | ok executable =>
      rw [map_bind]
      apply bind_congr
      intro written
      cases written with
      | error cause => simp only [map_pure]
      | ok done =>
        simp only [logListing_raise, map_pure]

theorem runFile_raise (fuel : Nat) (program input : String) (format : OutputFormat)
    (config : Config) :
    runFile files wording fuel program input format config (log.raise threshold) =
      (Option.map fun (log, result) => (log.raise threshold, result)) <$>
        runFile files wording fuel program input format config log := by
  unfold runFile
  rw [map_bind]
  apply bind_congr
  intro read
  cases read with
  | error cause => simp only [map_pure, Option.map_some]
  | ok json =>
    simp only
    cases Executable.ofJson json with
    | error cause => simp only [map_pure, Option.map_some]
    | ok executable =>
      rw [map_bind]
      apply bind_congr
      intro read
      cases read with
      | error cause => simp only [map_pure, Option.map_some]
      | ok text =>
        simp only [logState_raise, runLogged_raise, map_pure, Option.map_map, Function.comp_def,
          reportRun_raise]

/-- The conclusion without the messages below a threshold. -/
def Conclusion.filtered (threshold : Level) (conclusion : Conclusion) : Conclusion :=
  { conclusion with messages := conclusion.messages.filter (threshold ≤ ·.level) }

theorem conclude_raise (result : CommandResult) :
    conclude (log.raise threshold) result = (conclude log result).filtered threshold := by
  cases result with
  | ok output => simp only [conclude, Conclusion.filtered, Log.toList_messages_raise]
  | error error =>
    simp only [conclude, Conclusion.filtered, Log.add_raise, Log.toList_messages_raise]

/-- Performing a command at a greater level filters its conclusion. -/
theorem perform_of_le (fuel : Nat) (command : Command) {less greater : Level}
    (ordered : less ≤ greater) :
    perform files wording fuel greater command =
      (Option.map (Conclusion.filtered greater)) <$> perform files wording fuel less command := by
  cases command with
  | assemble source target =>
    simp only [perform]
    rw [← Log.raise_empty ordered, assembleFile_raise, map_bind, bind_map_left]
    simp only [map_pure, Option.map_some, conclude_raise]
  | run program input format config =>
    simp only [perform]
    rw [← Log.raise_empty ordered, runFile_raise, map_bind, bind_map_left]
    simp only [map_pure, Option.map_map, Function.comp_def, conclude_raise]

/-- Every command concludes with what it leaves behind. -/
theorem perform_eq_conclude (fuel : Nat) (level : Level) (command : Command) :
    ∃ ended : m (Option (Log × CommandResult)), perform files wording fuel level command =
      (Option.map fun (log, result) => conclude log result) <$> ended := by
  cases command with
  | assemble source target =>
    refine ⟨some <$> assembleFile files source target (.empty level), ?_⟩
    simp only [perform, map_eq_pure_bind, bind_assoc, pure_bind, Option.map_some]
  | run program input format config =>
    refine ⟨runFile files wording fuel program input format config (.empty level), ?_⟩
    simp only [perform, map_eq_pure_bind]

end

/-! ## Levels on the command line -/

/-- What a conclusion comes to under a greater threshold. The standard error has nothing but
messages on it. -/
structure Filters (threshold : Level) (fuller sparser : Conclusion) : Prop where
  exit : sparser.exit = fuller.exit
  output : sparser.output = fuller.output
  complaint : fuller.complaint = "" ∧ sparser.complaint = ""
  messages : sparser.messages = fuller.messages.filter (threshold ≤ ·.level)
  errors : sparser.messages.filter (·.level = .error) = fuller.messages.filter (·.level = .error)
  /-- The error of a command that fails is the last message of both. -/
  failed : fuller.exit ≠ 0 → ∃ error : CommandError,
    fuller.messages.getLast? = some ⟨.error, error.message⟩ ∧
    sparser.messages.getLast? = some ⟨.error, error.message⟩

theorem Level.le_error (level : Level) : level ≤ .error := by
  cases level <;> decide

theorem filters_filtered (threshold : Level) (log : Log) (result : CommandResult) :
    Filters threshold (conclude log result) ((conclude log result).filtered threshold) where
  exit := rfl
  output := rfl
  complaint := by
    cases result <;> exact ⟨rfl, rfl⟩
  messages := rfl
  errors := by
    rw [Conclusion.filtered, List.filter_filter]
    congr 1
    funext message
    by_cases error : message.level = .error
    · simp [error, Level.le_error]
    · simp [error]
  failed := by
    intro fails
    cases result with
    | ok output => exact absurd rfl fails
    | error error =>
      refine ⟨error, ?_, ?_⟩
      · simp only [conclude, messages_add_error, List.getLast?_concat]
      · simp [conclude, Conclusion.filtered, messages_add_error, Level.le_error]

theorem readHelp_ne_perform {level : Level} {command : Command} (arguments : List String) :
    readHelp arguments ≠ .ok (.perform level command) := by
  intro same
  unfold readHelp at same
  split at same
  · cases same
  · split at same <;> cases same

/-- A level in front of a command counts, unless one stands behind it: then that one counts. -/
theorem ofArguments_logLevel {name : String} {rest : List String} {level : Level}
    {command : Command} (form : Form.of name = .file name)
    (asked : Request.ofArguments (name :: rest) = .ok (.perform level command)) :
    (∀ given : Level, Request.ofArguments ("--log-level" :: given.name :: name :: rest) =
      .ok (.perform given command)) ∨
    ∀ given : Level, Request.ofArguments ("--log-level" :: given.name :: name :: rest) =
      .ok (.perform level command) := by
  rw [Request.ofArguments, readRequest_file form] at asked
  simp only [Request.ofArguments, readRequest_logLevel, readRequest_file form]
  unfold readCommand at asked ⊢
  split at asked
  · split at asked
    · exact absurd asked (readHelp_ne_perform rest)
    · cases asked
  · next verb found =>
    split at asked
    · cases asked
    · cases asked
    · next values read =>
      obtain ⟨command', fits, same⟩ := map_ok asked
      cases same
      simp only [fits, Except.map]
      cases values.level with
      | none => exact .inl fun _ => rfl
      | some behind => exact .inr fun _ => rfl

/-- The level filters messages and does nothing else. Two command lines that ask for the same
command at two levels leave the same files behind, and the same exit code and output where the
command ends. The messages at the greater level are those at the other one from that level on. A
level can stand in front of any command, and one behind the command overrides it. -/
theorem levels_only_filter {less greater : Level} (ordered : less ≤ greater) :
    (∀ (wording : Wording) (directory : Directory) (fuel : Nat) (command : Command)
      (first second : List String),
      Request.ofArguments first = .ok (.perform less command) →
      Request.ofArguments second = .ok (.perform greater command) →
      ∃ fuller? sparser? after,
        (invoke Directory.access fuel first wording).run directory = pure (fuller?, after) ∧
        (invoke Directory.access fuel second wording).run directory = pure (sparser?, after) ∧
        Option.Rel (Filters greater) fuller? sparser?) ∧
    ∀ (name : String) (rest : List String) (level : Level) (command : Command),
      Form.of name = .file name →
      Request.ofArguments (name :: rest) = .ok (.perform level command) →
      (∀ given : Level, Request.ofArguments ("--log-level" :: given.name :: name :: rest) =
        .ok (.perform given command)) ∨
      ∀ given : Level, Request.ofArguments ("--log-level" :: given.name :: name :: rest) =
        .ok (.perform level command) := by
  constructor
  · intro wording directory fuel command first second low high
    obtain ⟨ended, concludes⟩ := perform_eq_conclude Directory.access wording fuel less command
    obtain ⟨⟨ended?, after⟩, ran⟩ : ∃ result, ended.run directory = pure result := ⟨_, rfl⟩
    let fuller? := ended?.map fun (log, result) => conclude log result
    refine ⟨fuller?, fuller?.map (Conclusion.filtered greater), after, ?_, ?_, ?_⟩
    · rw [invoke_of_ofArguments low, concludes, StateT.run_map, ran, map_pure]
    · rw [invoke_of_ofArguments high, perform_of_le _ wording fuel command ordered, concludes,
        StateT.run_map, StateT.run_map, ran, map_pure, map_pure]
    · cases ended? with
      | none => exact .none
      | some ended => exact .some (filters_filtered greater ended.1 ended.2)
  · intro name rest level command form asked
    exact ofArguments_logLevel form asked

/-- A source file is assembled at the least level and at the greatest. -/
theorem levels_only_filter_assembly :
    let directory : Directory := ⟨[("a.asm", "_start:\nOUT %R0\nHLT".toUTF8)]⟩
    let arguments (level : Level) := ["--log-level", level.name, "assemble", "a.asm", "c.json"]
    ∃ messages sparser after,
      (invoke Directory.access 0 (arguments .debug)).run directory =
        pure (some { exit := 0, messages }, after) ∧
      (invoke Directory.access 0 (arguments .error)).run directory = pure (some sparser, after) ∧
      Filters .error { exit := 0, messages } sparser := by
  intro directory arguments
  have asked (level : Level) : Request.ofArguments (arguments level) =
      .ok (.perform level (.assemble "a.asm" "c.json")) := by
    have spelled := ofArguments_withLevel (some level) ["assemble", "a.asm", "c.json"]
    rw [readRequest_assemble (some level) (.plain rfl rfl) (by decide) (by decide)] at spelled
    exact spelled
  have held : directory.read "a.asm" = .ok "_start:\nOUT %R0\nHLT".toUTF8 := by
    rfl
  have written : Executable.sourceText ⟨0, [.command 15 [0], .command 22 []]⟩ =
      .ok "_start:\nOUT %R0\nHLT" := by
    cbv
  have assembled := (assemble_sourceText (Nat.zero_le _) written).1
  have writable : directory.Writable "c.json" := ⟨.empty, _, rfl⟩
  obtain ⟨after, done⟩ := Directory.exists_write writable _
  obtain ⟨messages, low⟩ : ∃ messages,
      (invoke Directory.access 0 (arguments .debug)).run directory =
        pure (some { exit := 0, messages }, after) :=
    invoke_assemble (asked .debug) held assembled done
  obtain ⟨fuller?, sparser?, same, low', high, filters⟩ :=
    (levels_only_filter (by decide)).1 .plain directory 0 _ _ _ (asked .debug) (asked .error)
  rw [low] at low'
  cases low'
  cases filters with
  | some filters => exact ⟨messages, _, _, low, high, filters⟩

end CommandLine

end TickMachine
