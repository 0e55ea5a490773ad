import TickMachine.Machine.Step

/-! # Execution by index

The control unit worked out with bare numbers. The arguments of a word are a list, and an operation
takes them by their indices in it; a register and a cell are items at an index as well. The part of
the machine that an operation occupies and its shape say which indices are used, and no type keeps
them in their range: a step that uses an index outside stops there. -/

namespace TickMachine.Indexed

/-- What stops a sequence: an index outside its range, or a fault of the machine. -/
inductive Stop
  | outOfRange
  | fault (fault : Fault)
  deriving DecidableEq, Repr

/-- A control sequence that takes what it uses by index. -/
abbrev Sequence := EStateM Stop Machine

/-- A control sequence in which no index can be outside its range. -/
def inRange {α : Type} (control : Control α) : Sequence α := fun machine =>
  match control machine with
  | .ok answer machine => .ok answer machine
  | .error fault machine => .error (.fault fault) machine

/-! ## Items -/

/-- The item of a list at an index. -/
def item {α : Type} (list : List α) (index : Nat) : Sequence α :=
  match list[index]? with
  | some item => return item
  | none => throw .outOfRange

/-- The index of the register that a code names. -/
def register (code : Int32) : Sequence Nat :=
  if 0 ≤ code.toInt ∧ code.toInt < 8 then return code.toInt.toNat
  else throw (.fault (.invalidRegister code))

/-- The content of the register at an index. -/
def readRegister (index : Nat) : Sequence Int32 := do
  let machine ← get
  item machine.path.registers.values.toList index

/-- Writes the register at an index. -/
def writeRegister (index : Nat) (value : Int32) : Sequence Unit := do
  let machine ← get
  if inside : index < 8 then
    let registers := ⟨machine.path.registers.values.set index value⟩
    set { machine with path := { machine.path with registers } }
  else throw .outOfRange

/-- The index of the cell at the latched address. -/
def cell : Sequence Nat := do
  let machine ← get
  let address := machine.path.dataAddress
  if 0 ≤ address.toInt ∧ address.toInt.toNat < machine.path.memory.cells.size then
    return address.toInt.toNat
  else throw (.fault (.memoryOutOfBounds address))

/-- The number in the cell at an index. -/
def readCell (index : Nat) : Sequence Int32 := do
  let machine ← get
  let word ← item machine.path.memory.cells.toList index
  return word.value

/-- Leaves data in the cell at an index. -/
def writeCell (index : Nat) (value : Int32) : Sequence Unit := do
  let machine ← get
  if inside : index < machine.path.memory.cells.size then
    let memory := ⟨machine.path.memory.cells.set index (.data value)⟩
    set { machine with path := { machine.path with memory } }
  else throw .outOfRange

/-! ## Operations -/

/-- The operand at an index, which is a register's content or the argument itself. -/
def operand (named : Bool) (args : List Int32) (index : Nat) : Sequence Int32 := do
  let argument ← item args index
  if named then readRegister (← register argument) else return argument

/-- An arithmetic operation. -/
def arithmetic (op : Op) (args : List Int32) : Sequence Unit := do
  let target ← register (← item args 0)
  let left ← readRegister (← register (← item args 1))
  let right ← operand (op.shape = .rrr) args 2
  inRange (Machine.signal (DataPath.latchAlu op left right))
  inRange Machine.tick
  writeRegister target (← get).path.aluResult
  inRange Machine.tick
  inRange Machine.advance

/-- An access to the cell at an address. -/
def access (op : Op) (target : Nat) (address : Int32) : Sequence Unit := do
  inRange (Machine.signal (DataPath.latchAddress address))
  inRange Machine.tick
  if op = .ld ∨ op = .lda then writeRegister target (← readCell (← cell))
  else
    let value ← readRegister target
    writeCell (← cell) value
  inRange Machine.tick
  inRange Machine.advance

/-- An operation on memory. A load of an immediate does not touch it. -/
def memory (op : Op) (args : List Int32) : Sequence Unit := do
  let target ← register (← item args 0)
  if op = .ldi then
    writeRegister target (← item args 1)
    inRange Machine.tick
    inRange Machine.advance
  else access op target (← operand (op.shape = .rr) args 1)

/-- An operation on the queues. -/
def io (op : Op) (args : List Int32) : Sequence Unit := do
  let target ← register (← item args 0)
  if op = .input then
    match (← get).path.input with
    | [] => throw (.fault .inputExhausted)
    | byte :: input =>
      modify fun machine => { machine with path := { machine.path with input } }
      writeRegister target (Int32.ofNat byte.toNat)
  else
    let value ← readRegister target
    modify fun machine => { machine with path :=
      { machine.path with output := machine.path.output.push (DataPath.lowByte value) } }
  inRange Machine.tick
  inRange Machine.advance

/-- A branch. -/
def branch (op : Op) (args : List Int32) : Sequence Unit := do
  let left ← readRegister (← register (← item args 0))
  let right ← readRegister (← register (← item args 1))
  let target ← item args 2
  inRange (Machine.signal (DataPath.latchAlu op left right))
  inRange Machine.tick
  if (← get).path.truth then inRange (Machine.jump target) else inRange Machine.advance

/-- Carries out an operation in its part of the machine. -/
def execute (op : Op) (args : List Int32) : Sequence Bool :=
  match op.opClass with
  | .nop => do
    inRange Machine.tick
    inRange Machine.advance
    inRange Machine.retire
  | .arithmetic => do
    arithmetic op args
    inRange Machine.retire
  | .memory => do
    memory op args
    inRange Machine.retire
  | .io => do
    io op args
    inRange Machine.retire
  | .branch => do
    branch op args
    inRange Machine.retire
  | .halt => inRange (Machine.stop .halted)

/-! ## Steps -/

/-- The operation of a word that has as many arguments as it should. -/
def decode (word : Word) : Sequence Op := do
  let machine ← get
  match Op.ofCode? word.opcode with
  | none => throw (.fault (.unknownOpcode word.opcode machine.ip))
  | some op =>
    if word.args.length = op.arity then return op
    else throw (.fault (.argumentCount op machine.ip op.arity word.args.length))

/-- Executes the instruction at the instruction pointer. The word there is taken by index from the
cells that hold the program. -/
def step : Sequence Bool := do
  let machine ← get
  if machine.status ≠ .running then return false
  else if machine.programLength ≤ machine.ip then inRange (Machine.stop .ended)
  else
    let word ← item (machine.path.memory.cells.toList.take machine.programLength) machine.ip
    let op ← decode word
    inRange (Machine.checkLimit op)
    execute op word.args

end TickMachine.Indexed
