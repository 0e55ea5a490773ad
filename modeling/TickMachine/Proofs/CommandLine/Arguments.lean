import TickMachine.CommandLine.Arguments
import TickMachine.Proofs.Text.Decimal

/-! # Spelled arguments

The arguments that ask for a command: its name, the options with their values, and the two files,
which two dashes keep from being taken for options where that is needed. -/

namespace TickMachine.CommandLine

/-- Arguments that name two files. Behind two dashes a name may begin with a dash. -/
inductive Names (first second : String) : List String → Prop
  | plain (firstFile : Form.of first = .file first) (secondFile : Form.of second = .file second) :
    Names first second [first, second]
  | escaped : Names first second ["--", first, second]

/-- The options of a run. -/
structure RunOptions where
  format? : Option OutputFormat := none
  stepLimit? : Option Nat := none
  memoryScale? : Option Nat := none
  deriving DecidableEq, Repr

namespace RunOptions

/-- The arguments that give the options. -/
def arguments (options : RunOptions) : List String :=
  (options.format?.elim [] fun format => ["-O", format.name]) ++
    ((options.stepLimit?.elim [] fun limit => ["--step-limit", Decimal.ofNat limit]) ++
      (options.memoryScale?.elim [] fun scale => ["--memory-scale", Decimal.ofNat scale]))

/-- The format that the options choose. -/
def format (options : RunOptions) : OutputFormat := options.format?.getD .usual

/-- The configuration that the options choose. -/
def config (options : RunOptions) : Config :=
  let usual : Config := {}
  { memoryScale := options.memoryScale?.getD usual.memoryScale, stepLimit := options.stepLimit? }

/-- Whether every number fits in 64 bits. -/
def InRange (options : RunOptions) : Prop :=
  (∀ limit ∈ options.stepLimit?, limit < UInt64.size) ∧
    ∀ scale ∈ options.memoryScale?, scale < UInt64.size

end RunOptions

/-- Arguments with a level in front of them, where one is given. -/
def withLevel (level? : Option Level) (arguments : List String) : List String :=
  (level?.elim [] fun level => ["--log-level", level.name]) ++ arguments

/-! ## Values -/

theorem Form.of_of_head {argument : String} (head : argument.toList.head? ≠ some '-') :
    Form.of argument = .file argument := by
  unfold Form.of
  split
  · next same => simp [same] at head
  · next same => simp [same] at head
  · next same => simp [same] at head
  · rfl

/-- A number does not look like an option. -/
theorem form_ofNat (n : Nat) : Form.of (Decimal.ofNat n) = .file (Decimal.ofNat n) := by
  apply Form.of_of_head
  obtain ⟨c, rest, parts, digit⟩ := Decimal.exists_digits_eq_cons n
  rw [Decimal.toList_ofNat, parts, List.head?_cons]
  rintro ⟨rfl⟩
  cases digit

/-- A count is read back from its digits. -/
theorem readCount?_ofNat {n : Nat} (small : n < UInt64.size) :
    Decimal.readCount? (Decimal.ofNat n).toList = some n := by
  have read := Decimal.readNat?_digits n
  obtain ⟨c, rest, parts, digit⟩ := Decimal.exists_digits_eq_cons n
  rw [Decimal.toList_ofNat]
  rw [parts] at read ⊢
  unfold Decimal.readCount?
  split
  · next same =>
    cases same
    cases digit
  · simp only [read, if_pos small]

theorem form_name (format : OutputFormat) : Form.of format.name = .file format.name := by
  cases format <;> rfl

theorem ofName?_name (format : OutputFormat) : OutputFormat.ofName? format.name = some format := by
  cases format <;> decide +kernel

/-! ## Reading arguments -/

section

variable {known : List Setting} {given : Given} {first second : String}
  {rest arguments : List String}

theorem addFile_first (named : first ≠ "") (noneYet : given.files = []) :
    given.addFile first = .ok { given with files := [first] } := by
  simp [Given.addFile, noneYet, named]

theorem addFile_second (named : second ≠ "") :
    { given with files := [first] }.addFile second =
      .ok { given with files := [first, second] } := by
  simp [Given.addFile, named]

/-- Two names are read as the two files. -/
theorem readArguments_names (names : Names first second arguments) (firstNamed : first ≠ "")
    (secondNamed : second ≠ "") (noneYet : given.files = []) :
    readArguments known given arguments =
      .ok (some { given with files := [first, second] }) := by
  cases names with
  | plain firstFile secondFile =>
    simp only [readArguments, firstFile, secondFile, addFile_first firstNamed noneYet,
      addFile_second secondNamed]
  | escaped =>
    have escape : Form.of "--" = .escape := rfl
    simp only [readArguments, escape, List.foldlM_cons, List.foldlM_nil,
      addFile_first firstNamed noneYet, bind, Except.bind, addFile_second secondNamed]
    rfl

theorem readArguments_long {argument name value : String} {setting : Setting} {next : Given}
    {after : List String} (form : Form.of argument = .long name none) (other : name ≠ "help")
    (found : known.find? (·.name == name) = some setting)
    (taken : takeValue argument none rest = .ok (value, after))
    (set : given.set setting value = .ok next) :
    readArguments known given (argument :: rest) = readArguments known next after := by
  rw [readArguments, form]
  simp only [other, false_and, if_false, found]
  split
  · next failed =>
    rw [taken] at failed
    cases failed
  · next same =>
    rw [taken] at same
    cases same
    rw [set]

theorem readArguments_short {argument value : String} {letter : Char} {setting : Setting}
    {next : Given} {after : List String} (form : Form.of argument = .short letter [])
    (other : letter ≠ 'h') (found : known.find? (·.letter? == some letter) = some setting)
    (taken : takeValue argument none rest = .ok (value, after))
    (set : given.set setting value = .ok next) :
    readArguments known given (argument :: rest) = readArguments known next after := by
  rw [readArguments, form]
  simp only [other, if_false, found]
  split
  · next failed =>
    rw [taken] at failed
    cases failed
  · next same =>
    rw [taken] at same
    cases same
    rw [set]

/-- The value of an option is the next argument, where that does not look like an option. -/
theorem takeValue_next {option value : String} (form : Form.of value = .file value) :
    takeValue option none (value :: rest) = .ok (value, rest) := by
  simp only [takeValue, form]

theorem readArguments_format {format : OutputFormat} (unset : given.format = none) :
    readArguments Verb.run.settings given ("-O" :: format.name :: rest) =
      readArguments Verb.run.settings { given with format := some format } rest := by
  refine readArguments_short rfl (by decide) rfl
    (takeValue_next (form_name format)) ?_
  simp only [Given.set, Given.once, ofName?_name, unset]
  rfl

theorem readArguments_stepLimit {limit : Nat} (small : limit < UInt64.size)
    (unset : given.stepLimit = none) :
    readArguments Verb.run.settings given ("--step-limit" :: Decimal.ofNat limit :: rest) =
      readArguments Verb.run.settings { given with stepLimit := some limit } rest := by
  refine readArguments_long rfl (by decide) rfl
    (takeValue_next (form_ofNat limit)) ?_
  simp only [Given.set, Given.once, readCount?_ofNat small, unset]
  rfl

theorem readArguments_memoryScale {scale : Nat} (small : scale < UInt64.size)
    (unset : given.memoryScale = none) :
    readArguments Verb.run.settings given ("--memory-scale" :: Decimal.ofNat scale :: rest) =
      readArguments Verb.run.settings { given with memoryScale := some scale } rest := by
  refine readArguments_long rfl (by decide) rfl (takeValue_next (form_ofNat scale)) ?_
  simp only [Given.set, Given.once, readCount?_ofNat small, unset]
  rfl

/-- The options are read as what they choose. -/
theorem readArguments_options {options : RunOptions} (inRange : options.InRange) :
    readArguments Verb.run.settings {} (options.arguments ++ rest) =
      readArguments Verb.run.settings
        { format := options.format?, stepLimit := options.stepLimit?,
          memoryScale := options.memoryScale? } rest := by
  obtain ⟨format?, stepLimit?, memoryScale?⟩ := options
  obtain ⟨limits, scales⟩ := inRange
  have formats : ∀ arguments, readArguments Verb.run.settings {}
      ((format?.elim [] fun format => ["-O", format.name]) ++ arguments) =
        readArguments Verb.run.settings { format := format? } arguments := by
    intro arguments
    cases format? with
    | none => rfl
    | some format => exact readArguments_format rfl
  have stepLimits : ∀ arguments, readArguments Verb.run.settings { format := format? }
      ((stepLimit?.elim [] fun limit => ["--step-limit", Decimal.ofNat limit]) ++ arguments) =
        readArguments Verb.run.settings { format := format?, stepLimit := stepLimit? }
          arguments := by
    intro arguments
    cases stepLimit? with
    | none => rfl
    | some limit => exact readArguments_stepLimit (limits limit rfl) rfl
  have memoryScales : readArguments Verb.run.settings
      { format := format?, stepLimit := stepLimit? }
      ((memoryScale?.elim [] fun scale => ["--memory-scale", Decimal.ofNat scale]) ++ rest) =
        readArguments Verb.run.settings
          { format := format?, stepLimit := stepLimit?, memoryScale := memoryScale? } rest := by
    cases memoryScale? with
    | none => rfl
    | some scale => exact readArguments_memoryScale (scales scale rfl) rfl
  rw [RunOptions.arguments, List.append_assoc, formats, List.append_assoc, stepLimits, memoryScales]

/-! ## Requests -/

theorem readRequest_file {level : Option Level} {name : String} (form : Form.of name = .file name) :
    readRequest level (name :: rest) = readCommand level name rest := by
  unfold readRequest
  simp only [form]

theorem form_levelName (level : Level) : Form.of level.name = .file level.name := by
  cases level <;> rfl

theorem ofName?_levelName (level : Level) : Level.ofName? level.name = some level := by
  cases level <;> decide +kernel

/-- A level in front of the name of a command. -/
theorem readRequest_logLevel (level : Level) (rest : List String) :
    readRequest none ("--log-level" :: level.name :: rest) = readRequest (some level) rest := by
  have form : Form.of "--log-level" = .long "log-level" none := rfl
  have other : "log-level" ≠ "help" ∧ "log-level" ≠ "version" := by decide
  have named : ¬"log-level" ≠ Setting.logLevel.name := fun differs => differs rfl
  have once : Given.once .logLevel level.name Level.ofName? none = .ok (some level) := by
    simp only [Given.once, ofName?_levelName]
  have taken : takeValue "--log-level" none (level.name :: rest) = .ok (level.name, rest) :=
    takeValue_next (form_levelName level)
  rw [readRequest, form]
  simp only [other, false_and, if_false, named]
  split
  · next failed =>
    rw [taken] at failed
    cases failed
  · next same =>
    rw [taken] at same
    cases same
    rw [once]

/-- A level in front of the name of a command is the one that counts so far. -/
theorem ofArguments_withLevel (level? : Option Level) (arguments : List String) :
    Request.ofArguments (withLevel level? arguments) = readRequest level? arguments := by
  cases level? with
  | none => rfl
  | some level => exact readRequest_logLevel level arguments

theorem readRequest_assemble (level? : Option Level) (names : Names first second arguments)
    (firstNamed : first ≠ "") (secondNamed : second ≠ "") :
    readRequest level? ("assemble" :: arguments) =
      .ok (.perform (level?.getD .usual) (.assemble first second)) := by
  have found : Verb.ofName? "assemble" = some .assemble := rfl
  rw [readRequest_file rfl, readCommand, found]
  simp only [readArguments_names names firstNamed secondNamed]
  rfl

theorem readRequest_run (level? : Option Level) {options : RunOptions} (inRange : options.InRange)
    (names : Names first second arguments) (firstNamed : first ≠ "") (secondNamed : second ≠ "") :
    readRequest level? ("run" :: (options.arguments ++ arguments)) =
      .ok (.perform (level?.getD .usual) (.run first second options.format options.config)) := by
  have found : Verb.ofName? "run" = some .run := rfl
  rw [readRequest_file rfl, readCommand, found]
  simp only [readArguments_options inRange, readArguments_names names firstNamed secondNamed]
  rfl

/-- The arguments that ask to assemble a file into another file. -/
theorem ofArguments_assemble (names : Names first second arguments) (firstNamed : first ≠ "")
    (secondNamed : second ≠ "") :
    Request.ofArguments ("assemble" :: arguments) =
      .ok (.perform .usual (.assemble first second)) :=
  readRequest_assemble none names firstNamed secondNamed

/-- The arguments that ask to run a file on another file. -/
theorem ofArguments_run {options : RunOptions} (inRange : options.InRange)
    (names : Names first second arguments) (firstNamed : first ≠ "") (secondNamed : second ≠ "") :
    Request.ofArguments ("run" :: (options.arguments ++ arguments)) =
      .ok (.perform .usual (.run first second options.format options.config)) :=
  readRequest_run none inRange names firstNamed secondNamed

end

end TickMachine.CommandLine
