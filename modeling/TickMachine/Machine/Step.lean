import TickMachine.Machine.DataPath
import TickMachine.Machine.Instruction
import TickMachine.Program.Executable

/-! # Steps

A step fetches, decodes and executes one instruction. The control unit works in ticks: what an
instruction has done before it fails stays done, and its ticks stay counted. -/

namespace TickMachine

/-- The limits of a run: the size of memory as a multiple of the length of the program, and the
number of instructions after which the run is given up. -/
structure Config where
  memoryScale : Nat := 5
  stepLimit : Option Nat := none
  deriving DecidableEq, Repr, Inhabited

/-- Whether a machine runs, has been halted by an instruction, or has left its program. -/
inductive Status
  | running
  | halted
  | ended
  deriving DecidableEq, Repr, Inhabited

/-- The greatest number that a counter of the control unit can hold. -/
def Counter.limit : Nat := UInt64.size - 1

/-- A counter after one more event. A full counter stays full. -/
def Counter.next (count : Nat) : Nat := min (count + 1) Counter.limit

/-- The state of a machine. -/
structure Machine where
  ip : Nat
  ticks : Nat := 0
  instructions : Nat := 0
  path : DataPath
  programLength : Nat
  config : Config := {}
  status : Status := .running
  deriving DecidableEq, Repr, Inhabited

/-- The bytes that a program reads from the text of an input file: the text and a zero. -/
def inputOfText (text : String) : List UInt8 := text.toUTF8.toList ++ [0]

/-- A sequence of control signals: it changes the machine and may fail midway. -/
abbrev Control := EStateM Fault Machine

namespace Machine

/-- The machine in front of the first instruction of an executable. -/
def load (executable : Executable) (input : List UInt8) (config : Config) : Machine where
  ip := executable.start
  path :=
    { memory := .load executable.program (executable.program.length * config.memoryScale)
      input }
  programLength := executable.program.length
  config

/-- The content of a register. -/
def register (machine : Machine) (register : Register) : Int32 := machine.path.register register

/-- The value of an instruction's last operand. -/
def value (machine : Machine) : Argument → Int32
  | .register register => machine.register register
  | .immediate value => value

/-- Counts a tick. -/
def tick : Control Unit :=
  modify fun machine => { machine with ticks := Counter.next machine.ticks }

/-- Moves on to the next address. -/
def advance : Control Unit :=
  modify fun machine => { machine with ip := machine.ip + 1 }

/-- Moves to the target of a branch. -/
def jump (target : Int32) : Control Unit :=
  if 0 ≤ target.toInt then modify fun machine => { machine with ip := target.toInt.toNat }
  else throw (.invalidBranchTarget target)

/-- Gives a signal to the data path. -/
def signal (signal : Signal Unit) : Control Unit := fun
  | ⟨ip, ticks, instructions, path, programLength, config, status⟩ =>
    match signal path with
    | .ok _ path => .ok () ⟨ip, ticks, instructions, path, programLength, config, status⟩
    | .error fault path =>
      .error fault ⟨ip, ticks, instructions, path, programLength, config, status⟩

/-- Counts a completed instruction. The machine goes on. -/
def retire : Control Bool := do
  modify fun machine => { machine with instructions := Counter.next machine.instructions }
  return true

/-- Stops the machine. -/
def stop (status : Status) : Control Bool := do
  modify fun machine => { machine with status }
  return false

/-- Executes an instruction, and answers whether the machine goes on. -/
def execute : Instruction → Control Bool
  | .halt => stop .halted
  | .nop => do
    tick
    advance
    retire
  | .arithmetic op target left right => do
    let machine ← get
    signal (DataPath.latchAlu op (machine.register left) (machine.value right))
    tick
    signal (DataPath.latchRegister target .alu)
    tick
    advance
    retire
  | .loadImmediate target value => do
    signal (DataPath.latchRegister target (.immediate value))
    tick
    advance
    retire
  | .load target address => do
    let machine ← get
    signal (DataPath.latchAddress (machine.value address))
    tick
    signal (DataPath.latchRegister target .memory)
    tick
    advance
    retire
  | .store source address => do
    let machine ← get
    signal (DataPath.latchAddress (machine.value address))
    tick
    signal (DataPath.storeRegister source)
    tick
    advance
    retire
  | .receive target => do
    signal (DataPath.latchRegister target .input)
    tick
    advance
    retire
  | .send source => do
    signal (DataPath.sendRegister source)
    tick
    advance
    retire
  | .branch op left right target => do
    let machine ← get
    signal (DataPath.latchAlu op (machine.register left) (machine.register right))
    tick
    let machine ← get
    if machine.path.truth then jump target else advance
    retire

/-- Refuses an operation once the limit of instructions is reached. Halting is always allowed. -/
def checkLimit (op : Op) : Control Unit := do
  let machine ← get
  match machine.config.stepLimit with
  | some limit =>
    if op ≠ .hlt ∧ limit ≤ machine.instructions then throw (.stepLimitExceeded limit)
    else return ()
  | none => return ()

/-- Decodes a word and executes it. -/
def dispatch (word : Word) : Control Bool := do
  let machine ← get
  let decoded ← ofExcept (word.decode machine.ip)
  checkLimit decoded.op
  let instruction ← ofExcept decoded.instruction
  execute instruction

/-- Executes the instruction at the instruction pointer, and answers whether the machine goes on.
A machine that has stopped stays as it is. -/
def step : Control Bool := do
  let machine ← get
  if machine.status ≠ .running then return false
  else if machine.programLength ≤ machine.ip then stop .ended
  else
    match machine.path.memory.word? machine.ip with
    | none => stop .ended
    | some word => dispatch word

end Machine

end TickMachine
