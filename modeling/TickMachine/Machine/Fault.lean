import TickMachine.Arch.Op
import TickMachine.Text.Decimal

/-! # Execution faults

What can stop a machine in the middle of a program, and the wording of each fault. -/

namespace TickMachine

/-- Why an instruction cannot be executed. -/
inductive Fault
  | unknownOpcode (opcode : Int32) (address : Nat)
  | argumentCount (op : Op) (address expected got : Nat)
  | invalidRegister (code : Int32)
  | memoryOutOfBounds (address : Int32)
  | inputExhausted
  | invalidBranchTarget (target : Int32)
  | stepLimitExceeded (limit : Nat)
  deriving DecidableEq, Repr

/-- The message of a fault. -/
def Fault.message : Fault → String
  | .unknownOpcode opcode address =>
    s!"unknown opcode {Decimal.ofInt32 opcode} at address {Decimal.ofNat address}"
  | .argumentCount op address expected got =>
    s!"malformed {op.mnemonic} at address {Decimal.ofNat address}: " ++
      s!"expected {Decimal.ofNat expected} argument(s), got {Decimal.ofNat got}"
  | .invalidRegister code => s!"register with code {Decimal.ofInt32 code} doesn't exist"
  | .memoryOutOfBounds address => s!"memory address {Decimal.ofInt32 address} out of bounds"
  | .inputExhausted => "input exhausted"
  | .invalidBranchTarget target => s!"invalid branch target {Decimal.ofInt32 target}"
  | .stepLimitExceeded limit => s!"step limit of {Decimal.ofNat limit} instructions exceeded"

end TickMachine
