import TickMachine.Assembly.Assemble
import TickMachine.CommandLine.Files
import TickMachine.CommandLine.Wording
import TickMachine.Machine.Event
import TickMachine.Machine.Run
import TickMachine.Machine.StateLine
import TickMachine.Program.Descriptor
import TickMachine.Program.Listing

/-! # Sessions

What the command line does: it assembles a source file into a file with a descriptor, or runs the
program of such a file. Messages go to a log; what the program sent goes to the output, but only
if the run ends well. -/

namespace TickMachine.CommandLine

/-- Why a command fails. -/
inductive CommandError
  | unreadable (role path : String) (cause : FileError)
  | unwritable (path : String) (cause : FileError)
  | refused (cause : AssemblyError)
  | malformed (path : String) (cause : DescriptorError)
  | fault (cause : Fault)
  deriving DecidableEq, Repr

/-- The message of a command error, with the causes behind it. The message of an assembly error that
is lexical quotes the lexical error, which is its cause, and that of a descriptor error quotes the
JSON reader, so that what is quoted stands there twice. -/
def CommandError.message : CommandError → String
  | .unreadable role path cause => s!"could not read {role} {path}: {cause.message}"
  | .unwritable path cause => s!"could not write {path}: {cause.message}"
  | .refused (.lexical cause) =>
    s!"{(AssemblyError.lexical cause).message}: {cause.message}"
  | .refused cause => cause.message
  | .malformed path cause =>
    s!"malformed compiled program {path}: {cause.message}: {cause.detail}"
  | .fault cause => cause.message

/-- What a command leaves behind: the text that it prints, or its error. -/
abbrev CommandResult := Except CommandError String

/-- The number of lines of a text. A last line need not be ended. -/
def lineCount (text : String) : Nat :=
  let chars := text.toList
  chars.count '\n' + if chars.getLast?.any (· != '\n') then 1 else 0

/-- Logs the labels in the order in which they were entered. -/
def logLabels (labels : LabelTable) (log : Log) : Log :=
  labels.entries.foldl
    (fun log (label, address) =>
      log.add .debug fun _ => s!"label {label} -> {Decimal.ofNat address}")
    log

/-- Logs the labels of each address. -/
def logAddresses (labels : LabelTable) (log : Log) : Log :=
  labels.byAddress.foldl
    (fun log (address, names) =>
      log.add .debug fun _ => Listing.address address ++ " " ++ ", ".intercalate names)
    log

/-- Logs what is known of a program once its source has been read. -/
def logAssembled (executable : Executable) (labels : LabelTable) (log : Log) : Log :=
  log.add .info fun _ =>
    s!"assembled {Decimal.ofNat executable.program.length} words, " ++
      s!"{Decimal.ofNat labels.size} labels, start at {Decimal.ofNat executable.start}"

/-- Logs the listing of a program and the sizes of its source and of its code. -/
def logListing (source : String) (executable : Executable) (labels : LabelTable) (log : Log) :
    Log :=
  let log := log.add .debug fun _ => "listing:\n" ++ executable.listing
  let log := logAddresses labels log
  log.add .info fun _ =>
    s!"source LoC: {Decimal.ofNat (lineCount source)} " ++
      s!"code words: {Decimal.ofNat executable.program.length}"

/-- Assembles the source in one file into another file. -/
def assembleFile {m : Type → Type} [Monad m] (files : FileAccess m) (source target : String)
    (log : Log) : m (Log × CommandResult) := do
  match ← files.readText source with
  | .error cause => return (log, .error (.unreadable "assembly file" source cause))
  | .ok text =>
    let assembly := Assembly.ofSource text
    let log := logLabels assembly.labels log
    match assembly.result with
    | .error cause => return (log, .error (.refused cause))
    | .ok executable =>
      let log := logAssembled executable assembly.labels log
      match ← files.write target executable.toJson.toUTF8 with
      | .error cause => return (log, .error (.unwritable target cause))
      | .ok () => return (logListing text executable assembly.labels log, .ok "")

/-- Logs the state of a machine. -/
def logState (machine : Machine) (log : Log) : Log :=
  log.add .debug fun _ => machine.stateLine

/-- The event of the next step, unless its message would be dropped. -/
def pendingEvent (log : Log) (machine : Machine) : Option Event :=
  if log.threshold ≤ .debug then machine.event? else none

/-- Logs the event of a step. -/
def logEvent (event : Option Event) (log : Log) : Log :=
  match event with
  | some event => log.add .debug fun _ => event.message
  | none => log

/-- Runs a machine for at most `fuel` steps and logs every step. -/
def runLogged : (fuel : Nat) → Log → Machine → Option (Log × Outcome)
  | 0, _, _ => none
  | fuel + 1, log, machine =>
    let event := pendingEvent log machine
    match Machine.step machine with
    | .ok true machine => runLogged fuel (logState machine (logEvent event log)) machine
    | .ok false machine => some (log, machine.finish)
    | .error fault machine => some (log, .error fault machine)

/-- Logs the end of a run, and shows what the program sent. -/
def reportRun (format : OutputFormat) (log : Log) : Outcome → Log × CommandResult
  | .error fault _ => (log, .error (.fault fault))
  | .ok report machine =>
    let log := log.add .info fun _ =>
      s!"{Decimal.ofNat report.instructions} instructions executed in " ++
        s!"{Decimal.ofNat report.ticks} ticks"
    let log :=
      if report.halted then log
      else log.add .warn fun _ =>
        s!"program ended without HLT at address {Decimal.ofNat machine.ip}"
    let log := log.add .info fun _ => s!"ticks: {Decimal.ofNat report.ticks}"
    (log, .ok (format.render report.output ++ "\n"))

/-- Runs the program in one file on the input in another file. There is no result when the run
takes more than `fuel` steps. -/
def runFile {m : Type → Type} [Monad m] (files : FileAccess m) (wording : Wording) (fuel : Nat)
    (program input : String) (format : OutputFormat) (config : Config) (log : Log) :
    m (Option (Log × CommandResult)) := do
  match ← files.readText program with
  | .error cause => return some (log, .error (.unreadable "compiled program" program cause))
  | .ok text =>
    match Executable.ofJson text with
    | .error failure =>
      return some (log, .error (.malformed program ⟨failure, wording.json text failure⟩))
    | .ok executable =>
      match ← files.readText input with
      | .error cause => return some (log, .error (.unreadable "input file" input cause))
      | .ok text =>
        let machine := Machine.load executable (inputOfText text) config
        return (runLogged fuel (logState machine log) machine).map fun (log, outcome) =>
          reportRun format log outcome

/-- What the command line leaves behind, apart from files. A complaint about the arguments is not a
message: no level hides it. -/
structure Conclusion where
  exit : Nat
  output : String := ""
  messages : List Message := []
  complaint : String := ""
  deriving DecidableEq, Repr, Inhabited

/-- The text that goes to the standard error. -/
def Conclusion.diagnostics (conclusion : Conclusion) : String :=
  conclusion.complaint ++ String.join (conclusion.messages.map fun m => m.line ++ "\n")

/-- The conclusion of a command. An error is a message of its own. -/
def conclude (log : Log) : CommandResult → Conclusion
  | .ok output => { exit := 0, output, messages := log.messages.toList }
  | .error error =>
    { exit := 1, messages := (log.add .error fun _ => error.message).messages.toList }

/-- Performs a command. There is no conclusion when a run takes more than `fuel` steps. -/
def perform {m : Type → Type} [Monad m] (files : FileAccess m) (wording : Wording) (fuel : Nat)
    (level : Level) (command : Command) : m (Option Conclusion) := do
  match command with
  | .assemble source target =>
    let (log, result) ← assembleFile files source target (.empty level)
    return some (conclude log result)
  | .run program input format config =>
    let ended ← runFile files wording fuel program input format config (.empty level)
    return ended.map fun (log, result) => conclude log result

/-- The text that answers a request for the version. The date of the build is behind it only where
it is asked for. -/
def versionText (wording : Wording) (dated : Bool) : String :=
  if dated then s!"drum 0.1.0 (built {wording.buildDate})\n" else "drum 0.1.0\n"

/-- Does what the arguments ask for. There is no conclusion when a run takes more than `fuel`
steps. -/
def invoke {m : Type → Type} [Monad m] (files : FileAccess m) (fuel : Nat)
    (arguments : List String) (wording : Wording := .plain) : m (Option Conclusion) :=
  match Request.ofArguments arguments with
  | .error error => return some { exit := 2, complaint := wording.usage arguments error }
  | .ok .help => return some { exit := 0, output := wording.help arguments }
  | .ok (.version dated) => return some { exit := 0, output := versionText wording dated }
  | .ok (.perform level command) => perform files wording fuel level command

end TickMachine.CommandLine
