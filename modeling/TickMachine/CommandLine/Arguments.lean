import TickMachine.Log
import TickMachine.Machine.Step
import TickMachine.OutputFormat

/-! # Arguments

The arguments of the command line. Options may stand anywhere among the files, an option is given
at most once, and its value is attached to it or follows it. The first fault from the left decides,
and missing files are noticed last. -/

namespace TickMachine.CommandLine

/-- What the command line asks for. -/
inductive Command
  | assemble (source : String) (target : String)
  | run (program : String) (input : String) (format : OutputFormat) (config : Config)
  deriving DecidableEq, Repr

/-- The meaning of the arguments. A request for the version may ask for the date of the build as
well. -/
inductive Request
  | help
  | version (dated : Bool)
  | perform (level : Level) (command : Command)
  deriving DecidableEq, Repr

/-- Why the arguments are refused. -/
inductive UsageError
  | unexpectedArgument (argument : String)
  | missingValue (option : String)
  | invalidValue (option value : String)
  | repeatedOption (option : String)
  | missingFile (name : String)
  | unknownCommand (name : String)
  | missingCommand
  deriving DecidableEq, Repr

/-- The form of an argument: text behind two dashes with the value attached by an equals sign, text
behind one dash, two dashes alone, or anything else. A dash alone is a file. -/
inductive Form
  | long (name : String) (attached : Option String)
  | short (letter : Char) (attached : List Char)
  | escape
  | file (name : String)
  deriving DecidableEq, Repr

/-- The form of an argument. -/
def Form.of (argument : String) : Form :=
  match argument.toList with
  | ['-', '-'] => .escape
  | '-' :: '-' :: text =>
    match text.dropWhile (· != '=') with
    | _ :: value => .long (String.ofList (text.takeWhile (· != '='))) (some (String.ofList value))
    | [] => .long (String.ofList text) none
  | '-' :: letter :: rest => .short letter rest
  | _ => .file argument

/-- The options that take a value. -/
inductive Setting
  | logLevel
  | outputFormat
  | stepLimit
  | memoryScale
  deriving DecidableEq, Repr

namespace Setting

/-- The name of the option behind its dashes. -/
def name : Setting → String
  | .logLevel => "log-level"
  | .outputFormat => "output-format"
  | .stepLimit => "step-limit"
  | .memoryScale => "memory-scale"

/-- The letter of the option behind a single dash. -/
def letter? : Setting → Option Char
  | .outputFormat => some 'O'
  | _ => none

end Setting

/-- The values that have been given so far. -/
structure Given where
  level : Option Level := none
  format : Option OutputFormat := none
  stepLimit : Option Nat := none
  memoryScale : Option Nat := none
  files : List String := []
  deriving DecidableEq, Repr

namespace Given

/-- Puts a value where there is none yet. -/
def once {α : Type} (setting : Setting) (value : String) (read : String → Option α)
    (old : Option α) : Except UsageError (Option α) :=
  match read value, old with
  | none, _ => .error (.invalidValue setting.name value)
  | some _, some _ => .error (.repeatedOption setting.name)
  | some new, none => .ok (some new)

/-- Takes the value of an option. -/
def set (given : Given) (setting : Setting) (value : String) : Except UsageError Given :=
  match setting with
  | .logLevel => (once setting value Level.ofName? given.level).map ({ given with level := · })
  | .outputFormat =>
    (once setting value OutputFormat.ofName? given.format).map ({ given with format := · })
  | .stepLimit =>
    (once setting value (Decimal.readCount? ·.toList) given.stepLimit).map
      ({ given with stepLimit := · })
  | .memoryScale =>
    (once setting value (Decimal.readCount? ·.toList) given.memoryScale).map
      ({ given with memoryScale := · })

/-- Takes the name of a file. There are two files at most, and none has an empty name. -/
def addFile (given : Given) (name : String) : Except UsageError Given :=
  if 2 ≤ given.files.length then .error (.unexpectedArgument name)
  else if name = "" then .error (.invalidValue "file" name)
  else .ok { given with files := given.files ++ [name] }

end Given

/-- The value of an option and the arguments behind it. A value that is not attached is the next
argument, which must not look like an option. -/
def takeValue (option : String) (attached : Option String) (rest : List String) :
    Except UsageError (String × List String) :=
  match attached, rest with
  | some value, rest => .ok (value, rest)
  | none, [] => .error (.missingValue option)
  | none, next :: rest =>
    match Form.of next with
    | .file value => .ok (value, rest)
    | _ => .error (.missingValue option)

theorem takeValue_length_le {option value : String} {attached : Option String}
    {rest after : List String} (h : takeValue option attached rest = .ok (value, after)) :
    after.length ≤ rest.length := by
  unfold takeValue at h
  split at h
  · cases h
    exact Nat.le_refl _
  · cases h
  · split at h
    · cases h
      exact Nat.le_succ _
    · cases h

/-- Reads the arguments behind the name of a command, which knows some of the settings. Behind two
dashes alone, every argument is a file. There is no answer when help is asked for. -/
def readArguments (known : List Setting) (given : Given) :
    List String → Except UsageError (Option Given)
  | [] => .ok (some given)
  | argument :: rest =>
    match Form.of argument with
    | .file name =>
      match given.addFile name with
      | .error error => .error error
      | .ok given => readArguments known given rest
    | .escape => (rest.foldlM Given.addFile given).map some
    | .long name attached =>
      if name = "help" ∧ attached = none then .ok none
      else
        match known.find? (·.name == name) with
        | none => .error (.unexpectedArgument argument)
        | some setting =>
          match _taken : takeValue argument attached rest with
          | .error error => .error error
          | .ok (value, rest) =>
            match given.set setting value with
            | .error error => .error error
            | .ok given => readArguments known given rest
    | .short letter attached =>
      if letter = 'h' then .ok none
      else
        match known.find? (·.letter? == some letter) with
        | none => .error (.unexpectedArgument argument)
        | some setting =>
          let attached := match attached with
            | [] => none
            | '=' :: value => some (String.ofList value)
            | value => some (String.ofList value)
          match _taken : takeValue argument attached rest with
          | .error error => .error error
          | .ok (value, rest) =>
            match given.set setting value with
            | .error error => .error error
            | .ok given => readArguments known given rest
termination_by arguments => arguments.length
decreasing_by
  · exact Nat.lt_succ_self _
  · exact Nat.lt_succ_of_le (takeValue_length_le _taken)
  · exact Nat.lt_succ_of_le (takeValue_length_le _taken)

/-- The commands by name. -/
inductive Verb
  | assemble
  | run
  deriving DecidableEq, Repr

namespace Verb

/-- The name of the command. -/
def name : Verb → String
  | .assemble => "assemble"
  | .run => "run"

/-- The command of a name. -/
def ofName? (name : String) : Option Verb := [Verb.assemble, Verb.run].find? (·.name == name)

/-- The settings that the command knows. -/
def settings : Verb → List Setting
  | .assemble => [.logLevel]
  | .run => [.logLevel, .outputFormat, .stepLimit, .memoryScale]

/-- The names of the two files of the command. -/
def files : Verb → String × String
  | .assemble => ("<INPUT>", "<OUTPUT>")
  | .run => ("<COMPILED>", "<INPUT>")

/-- The command with what has been given for it. -/
def command (verb : Verb) (given : Given) : Except UsageError Command :=
  match given.files with
  | first :: second :: _ =>
    match verb with
    | .assemble => .ok (.assemble first second)
    | .run =>
      let config : Config := {}
      .ok (.run first second (given.format.getD .usual)
        { memoryScale := given.memoryScale.getD config.memoryScale, stepLimit := given.stepLimit })
  | [_] => .error (.missingFile verb.files.2)
  | [] => .error (.missingFile verb.files.1)

end Verb

/-- Reads the arguments behind a request for help: the name of a command at most. -/
def readHelp : List String → Except UsageError Request
  | [] => .ok .help
  | name :: rest =>
    if rest = [] ∧ (name = "help" ∨ (Verb.ofName? name).isSome) then .ok .help
    else .error (.unknownCommand name)

/-- Reads the arguments from the name of a command on. A level in front of the name is overridden
by one behind it. -/
def readCommand (level : Option Level) (name : String) (rest : List String) :
    Except UsageError Request :=
  match Verb.ofName? name with
  | none => if name = "help" then readHelp rest else .error (.unknownCommand name)
  | some verb =>
    match readArguments verb.settings {} rest with
    | .error error => .error error
    | .ok none => .ok .help
    | .ok (some given) =>
      (verb.command given).map (.perform ((given.level.or level).getD .usual))

/-- Reads the arguments in front of the name of a command. -/
def readRequest (level : Option Level) : List String → Except UsageError Request
  | [] => .error .missingCommand
  | argument :: rest =>
    match Form.of argument with
    | .file name => readCommand level name rest
    | .escape =>
      match rest with
      | [] => .error .missingCommand
      | name :: _ => .error (.unexpectedArgument name)
    | .short letter _ =>
      if letter = 'h' then .ok .help
      else if letter = 'V' then .ok (.version false)
      else .error (.unexpectedArgument argument)
    | .long name attached =>
      if name = "help" ∧ attached = none then .ok .help
      else if name = "version" ∧ attached = none then .ok (.version true)
      else if name ≠ Setting.logLevel.name then .error (.unexpectedArgument argument)
      else
        match _taken : takeValue argument attached rest with
        | .error error => .error error
        | .ok (value, rest) =>
          match Given.once .logLevel value Level.ofName? level with
          | .error error => .error error
          | .ok level => readRequest level rest
termination_by arguments => arguments.length
decreasing_by exact Nat.lt_succ_of_le (takeValue_length_le _taken)

/-- The request of the arguments. -/
def Request.ofArguments (arguments : List String) : Except UsageError Request :=
  readRequest none arguments

end TickMachine.CommandLine
