import TickMachine.Machine.Step

/-! # Events

The two kinds of steps that are worth a message of their own: a store to memory and a byte sent
to the output. -/

namespace TickMachine

/-- What a step did to memory or to the output. -/
inductive Event
  | stored (address value : Int32)
  | sent (byte : UInt8)
  deriving DecidableEq, Repr

/-- The message of an event. -/
def Event.message : Event → String
  | .stored address value => s!"[{Decimal.ofInt32 address}] = {Decimal.ofInt32 value}"
  | .sent byte => s!"sent to output: {Decimal.ofNat byte.toNat}"

namespace Machine

/-- The instruction at the instruction pointer, where there is one that can be decoded. -/
def instruction? (machine : Machine) : Option Instruction :=
  match machine.path.memory.word? machine.ip with
  | none => none
  | some word =>
    match word.decode machine.ip with
    | .error _ => none
    | .ok decoded => decoded.instruction.toOption

/-- The event of the next step, provided that the step succeeds. -/
def event? (machine : Machine) : Option Event :=
  match machine.instruction? with
  | some (.store source address) => some (.stored (machine.value address) (machine.register source))
  | some (.send source) => some (.sent (DataPath.lowByte (machine.register source)))
  | _ => none

end Machine

end TickMachine
