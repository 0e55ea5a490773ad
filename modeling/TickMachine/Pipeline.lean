import TickMachine.Assembly.Assemble
import TickMachine.Machine.Run

/-! # From source text to report

Assembling a text and running it at once, with the usual limits. -/

namespace TickMachine

/-- Why a text cannot be assembled and run. -/
inductive PipelineError
  | assembly (error : AssemblyError)
  | execution (fault : Fault)
  deriving DecidableEq, Repr

/-- The message of the stage that failed. -/
def PipelineError.message : PipelineError → String
  | .assembly error => error.message
  | .execution fault => fault.message

/-- Assembles a source text and runs it on an input. There is no result when the run takes more
than `fuel` steps. -/
def runSource (fuel : Nat) (source : String) (input : List UInt8) :
    Option (Except PipelineError Report) :=
  match assemble source with
  | .error error => some (.error (.assembly error))
  | .ok executable =>
    ((Machine.load executable input {}).run fuel).map fun
      | .ok report _ => .ok report
      | .error fault _ => .error (.execution fault)

end TickMachine
