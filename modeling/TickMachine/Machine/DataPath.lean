import TickMachine.Arch.Register
import TickMachine.Machine.Memory

/-! # Data path

The registers, the memory, the arithmetic unit with its latches, and the queues of bytes. Every
change is a signal; a signal that fails changes nothing. -/

namespace TickMachine

/-- The result of an arithmetic operation; other operations have none. Sums and differences wrap
around, and a shift moves zeros in from the left by the amount modulo 32. -/
def Op.result? (op : Op) (left right : Int32) : Option Int32 :=
  match op with
  | .add | .addi => some (left + right)
  | .sub | .subi => some (left - right)
  | .shr | .shri => some (left.toUInt32 >>> right.toUInt32).toInt32
  | .xor | .xori => some (left ^^^ right)
  | _ => none

/-- Whether the comparison of a branch holds; other operations never hold. -/
def Op.holds (op : Op) (left right : Int32) : Bool :=
  match op with
  | .beq => left == right
  | .bne => left != right
  | .blt => decide (left < right)
  | .ble => decide (left ≤ right)
  | .bgt => decide (right < left)
  | .bge => decide (right ≤ left)
  | _ => false

/-- The contents of the registers. -/
structure RegisterFile where
  values : Vector Int32 8 := Vector.replicate 8 0
  deriving DecidableEq, Repr, Inhabited

namespace RegisterFile

/-- The content of a register. -/
def get (file : RegisterFile) (register : Register) : Int32 := file.values[register.index]

/-- The registers after one of them has been written. -/
def set (file : RegisterFile) (register : Register) (value : Int32) : RegisterFile :=
  ⟨file.values.set register.index value⟩

/-- The contents in the order of the codes. -/
def toList (file : RegisterFile) : List Int32 := Register.all.map file.get

end RegisterFile

/-- Where a register takes its value from. -/
inductive Source
  | alu
  | input
  | memory
  | immediate (value : Int32)
  deriving DecidableEq, Repr

/-- The state of the data path. -/
structure DataPath where
  registers : RegisterFile := {}
  memory : Memory := {}
  dataAddress : Int32 := 0
  aluResult : Int32 := 0
  truth : Bool := false
  input : List UInt8 := []
  output : Array UInt8 := #[]
  deriving DecidableEq, Repr, Inhabited

/-- A control signal: it changes the data path or fails. -/
abbrev Signal := EStateM Fault DataPath

namespace DataPath

/-- The data path without memory and input. -/
def initial : DataPath := {}

/-- The content of a register. -/
def register (path : DataPath) (register : Register) : Int32 := path.registers.get register

/-- Latches the address of the next access to memory. -/
def latchAddress (address : Int32) : Signal Unit :=
  modify fun path => { path with dataAddress := address }

/-- Latches the result of an operation. An operation that is not arithmetic sets the truth flag
instead, and its result is the flag as a number. -/
def latchAlu (op : Op) (left right : Int32) : Signal Unit :=
  modify fun path =>
    match op.result? left right with
    | some value => { path with aluResult := value }
    | none =>
      let truth := op.holds left right
      { path with truth, aluResult := if truth then 1 else 0 }

/-- Latches a register from a source. -/
def latchRegister (register : Register) (source : Source) : Signal Unit := fun path =>
  match source with
  | .alu => .ok () { path with registers := path.registers.set register path.aluResult }
  | .immediate value => .ok () { path with registers := path.registers.set register value }
  | .input =>
    match path.input with
    | [] => .error .inputExhausted path
    | byte :: input =>
      let value := Int32.ofNat byte.toNat
      .ok () { path with registers := path.registers.set register value, input }
  | .memory =>
    match path.memory.read path.dataAddress with
    | .error fault => .error fault path
    | .ok value => .ok () { path with registers := path.registers.set register value }

/-- Stores a register at the latched address. -/
def storeRegister (register : Register) : Signal Unit := fun path =>
  match path.memory.locate path.dataAddress with
  | .error fault => .error fault path
  | .ok cell =>
    let value := path.register register
    .ok () { path with memory := path.memory.put cell value }

/-- The low byte of a machine value. -/
def lowByte (value : Int32) : UInt8 := value.toUInt32.toUInt8

/-- Sends the low byte of a register to the output. -/
def sendRegister (register : Register) : Signal Unit :=
  modify fun path => { path with output := path.output.push (lowByte (path.register register)) }

end DataPath

end TickMachine
