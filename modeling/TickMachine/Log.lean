import TickMachine.Text.Fold
import TickMachine.Text.Padding

/-! # Log

Messages of four levels. A log has a threshold, and a message below it is dropped before its text
is made. -/

namespace TickMachine

/-- The weight of a message. -/
inductive Level
  | debug
  | info
  | warn
  | error
  deriving DecidableEq, Repr, Inhabited

namespace Level

/-- The place of the level in the order of weight. -/
def rank : Level → Nat
  | .debug => 0
  | .info => 1
  | .warn => 2
  | .error => 3

instance : LE Level := ⟨fun a b => a.rank ≤ b.rank⟩

instance (a b : Level) : Decidable (a ≤ b) := inferInstanceAs (Decidable (a.rank ≤ b.rank))

/-- The name of the level. -/
def name : Level → String
  | .debug => "DEBUG"
  | .info => "INFO"
  | .warn => "WARN"
  | .error => "ERROR"

/-- The level of a name, whatever the case of its letters. -/
def ofName? (name : String) : Option Level :=
  if Text.sameFolded name "debug" then some .debug
  else if Text.sameFolded name "info" then some .info
  else if Text.sameFolded name "warn" || Text.sameFolded name "warning" then some .warn
  else if Text.sameFolded name "error" then some .error
  else none

/-- The level that is used when none is named. -/
def usual : Level := .info

/-- The message for a text that names no level. -/
def unknownMessage (name : String) : String := s!"unknown log level {name}"

end Level

/-- A message of a level. -/
structure Message where
  level : Level
  text : String
  deriving DecidableEq, Repr

/-- The line of a message. -/
def Message.line (message : Message) : String :=
  "[" ++ Text.padRight 5 ' ' message.level.name ++ "] " ++ message.text

/-- The messages from the threshold on, in order. -/
structure Log where
  threshold : Level
  messages : Array Message := #[]
  deriving DecidableEq, Repr

namespace Log

/-- The log without messages. -/
def empty (threshold : Level) : Log := { threshold }

/-- Adds a message, unless its level is below the threshold. -/
def add (log : Log) (level : Level) (text : Unit → String) : Log :=
  if log.threshold ≤ level then { log with messages := log.messages.push ⟨level, text ()⟩ }
  else log

end Log

end TickMachine
