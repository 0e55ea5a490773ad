import TickMachine.Arch.Register
import TickMachine.Machine.Fault
import TickMachine.Arch.Word

/-! # Instructions

What the control unit makes of a word: the operation and its arguments first, the registers that
the arguments name after that. -/

namespace TickMachine

/-- A word whose code is that of an operation and whose arguments have the right number. -/
structure Decoded where
  op : Op
  args : Vector Int32 op.arity

/-- Decodes the word at an address. -/
def Word.decode (address : Nat) (word : Word) : Except Fault Decoded :=
  match Op.ofCode? word.opcode with
  | none => .error (.unknownOpcode word.opcode address)
  | some op =>
    if h : word.args.length = op.arity then .ok ⟨op, ⟨word.args.toArray, h⟩⟩
    else .error (.argumentCount op address op.arity word.args.length)

/-- The last operand of an instruction: a register, or a number in its place. -/
inductive Argument
  | register (register : Register)
  | immediate (value : Int32)
  deriving DecidableEq, Repr

/-- An instruction that is ready to be executed. -/
inductive Instruction
  | nop
  | halt
  | arithmetic (op : Op) (target left : Register) (right : Argument)
  | loadImmediate (target : Register) (value : Int32)
  | load (target : Register) (address : Argument)
  | store (source : Register) (address : Argument)
  | receive (target : Register)
  | send (source : Register)
  | branch (op : Op) (left right : Register) (target : Int32)
  deriving DecidableEq, Repr

namespace Instruction

/-- The register of a code. -/
def register (code : Int32) : Except Fault Register :=
  match Register.ofCode? code with
  | some register => .ok register
  | none => .error (.invalidRegister code)

/-- The instruction on three registers. -/
def ofRrr (make : Register → Register → Register → Instruction) (args : Vector Int32 3) :
    Except Fault Instruction := do
  let first ← register args[0]
  let second ← register args[1]
  let third ← register args[2]
  return make first second third

/-- The instruction on two registers and an immediate. -/
def ofRri (make : Register → Register → Int32 → Instruction) (args : Vector Int32 3) :
    Except Fault Instruction := do
  let first ← register args[0]
  let second ← register args[1]
  return make first second args[2]

/-- The instruction on two registers. -/
def ofRr (make : Register → Register → Instruction) (args : Vector Int32 2) :
    Except Fault Instruction := do
  let first ← register args[0]
  let second ← register args[1]
  return make first second

/-- The instruction on a register and an immediate. -/
def ofRi (make : Register → Int32 → Instruction) (args : Vector Int32 2) :
    Except Fault Instruction := do
  let first ← register args[0]
  return make first args[1]

/-- The instruction on one register. -/
def ofR (make : Register → Instruction) (args : Vector Int32 1) : Except Fault Instruction := do
  let first ← register args[0]
  return make first

end Instruction

/-- The instruction of a decoded word, or the fault of the first argument that should name a
register and names none. -/
def Decoded.instruction : Decoded → Except Fault Instruction
  | ⟨.nop, _⟩ => .ok .nop
  | ⟨.hlt, _⟩ => .ok .halt
  | ⟨.add, args⟩ => Instruction.ofRrr (fun d l r => .arithmetic .add d l (.register r)) args
  | ⟨.sub, args⟩ => Instruction.ofRrr (fun d l r => .arithmetic .sub d l (.register r)) args
  | ⟨.shr, args⟩ => Instruction.ofRrr (fun d l r => .arithmetic .shr d l (.register r)) args
  | ⟨.xor, args⟩ => Instruction.ofRrr (fun d l r => .arithmetic .xor d l (.register r)) args
  | ⟨.addi, args⟩ => Instruction.ofRri (fun d l v => .arithmetic .addi d l (.immediate v)) args
  | ⟨.subi, args⟩ => Instruction.ofRri (fun d l v => .arithmetic .subi d l (.immediate v)) args
  | ⟨.shri, args⟩ => Instruction.ofRri (fun d l v => .arithmetic .shri d l (.immediate v)) args
  | ⟨.xori, args⟩ => Instruction.ofRri (fun d l v => .arithmetic .xori d l (.immediate v)) args
  | ⟨.ldi, args⟩ => Instruction.ofRi .loadImmediate args
  | ⟨.ld, args⟩ => Instruction.ofRr (fun d a => .load d (.register a)) args
  | ⟨.lda, args⟩ => Instruction.ofRi (fun d a => .load d (.immediate a)) args
  | ⟨.st, args⟩ => Instruction.ofRr (fun s a => .store s (.register a)) args
  | ⟨.sta, args⟩ => Instruction.ofRi (fun s a => .store s (.immediate a)) args
  | ⟨.input, args⟩ => Instruction.ofR .receive args
  | ⟨.output, args⟩ => Instruction.ofR .send args
  | ⟨.beq, args⟩ => Instruction.ofRri (.branch .beq) args
  | ⟨.bne, args⟩ => Instruction.ofRri (.branch .bne) args
  | ⟨.blt, args⟩ => Instruction.ofRri (.branch .blt) args
  | ⟨.ble, args⟩ => Instruction.ofRri (.branch .ble) args
  | ⟨.bgt, args⟩ => Instruction.ofRri (.branch .bgt) args
  | ⟨.bge, args⟩ => Instruction.ofRri (.branch .bge) args

end TickMachine
