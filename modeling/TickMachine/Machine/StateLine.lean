import TickMachine.Machine.Step
import TickMachine.Program.Disassembly
import TickMachine.Text.Padding

/-! # State lines

One line that shows a machine between two steps: its counters, the cell at the latched address,
the registers and the word to be executed next. -/

namespace TickMachine

namespace StateLine

/-- A number in a column of a least width. -/
def column (width : Nat) (number : String) : String := Text.padLeft width ' ' number

/-- A register with its content. -/
def register (machine : Machine) (register : Register) : String :=
  register.name ++ "=" ++ column 4 (Decimal.ofInt32 (machine.register register))

/-- The number in the cell at the latched address, or a dash when there is no such cell. -/
def memory (machine : Machine) : String :=
  match machine.path.memory.read machine.path.dataAddress with
  | .ok value => Decimal.ofInt32 value
  | .error _ => "-"

/-- The word to be executed next: its text, or the reason why it has none. -/
def word (machine : Machine) : String :=
  if machine.ip < machine.programLength then
    match machine.path.memory.word? machine.ip with
    | some word =>
      match word.disassemble with
      | .ok text => text
      | .error error => "<" ++ error.message ++ ">"
    | none => "<end>"
  else "<end>"

end StateLine

/-- The line that shows a machine. -/
def Machine.stateLine (machine : Machine) : String :=
  " ".intercalate
    (["TICK=" ++ StateLine.column 4 (Decimal.ofNat machine.ticks),
        "IP=" ++ StateLine.column 3 (Decimal.ofNat machine.ip),
        "ADDR=" ++ StateLine.column 3 (Decimal.ofInt32 machine.path.dataAddress),
        "MEM=" ++ StateLine.column 6 (StateLine.memory machine)] ++
      Register.all.map (StateLine.register machine) ++ [StateLine.word machine])

end TickMachine
