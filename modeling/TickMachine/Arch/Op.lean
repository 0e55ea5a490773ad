import TickMachine.Text.Fold

/-! # Operations

The operations of the machine: their mnemonics and codes, the operands that each one takes, and
the part of the machine that carries it out. -/

namespace TickMachine

/-- The kind of a single operand. -/
inductive OperandKind
  | register
  | immediate
  deriving DecidableEq, Repr

/-- The name of the kind in messages. -/
def OperandKind.text : OperandKind → String
  | .register => "register"
  | .immediate => "immediate"

/-- The operands that an operation takes: `r` stands for a register and `i` for an immediate. -/
inductive Shape
  | none | rrr | rri | rr | ri | r
  deriving DecidableEq, Repr

/-- The kinds of the operands, in the order in which they are written. -/
def Shape.kinds : Shape → List OperandKind
  | .none => []
  | .rrr => [.register, .register, .register]
  | .rri => [.register, .register, .immediate]
  | .rr => [.register, .register]
  | .ri => [.register, .immediate]
  | .r => [.register]

/-- The part of the machine that an operation occupies. -/
inductive OpClass
  | nop | arithmetic | memory | io | branch | halt
  deriving DecidableEq, Repr

/-- An operation of the machine. An operation whose name ends in `i` takes an immediate in the
place of its last register. -/
inductive Op
  | nop
  | add | addi | sub | subi | shr | shri | xor | xori
  | ld | st | ldi | lda | sta
  | input | output
  | beq | bne | blt | ble | bgt | bge
  | hlt
  deriving DecidableEq, Repr, Inhabited

namespace Op

/-- Every operation, in the order of the codes. -/
def all : List Op :=
  [.nop, .add, .addi, .sub, .subi, .shr, .shri, .xor, .xori, .ld, .st, .ldi, .lda, .sta, .input,
    .output, .beq, .bne, .blt, .ble, .bgt, .bge, .hlt]

/-- The code that introduces a command of the operation. -/
def code : Op → Int32
  | .nop => 0
  | .add => 1 | .addi => 2 | .sub => 3 | .subi => 4
  | .shr => 5 | .shri => 6 | .xor => 7 | .xori => 8
  | .ld => 9 | .st => 10 | .ldi => 11 | .lda => 12 | .sta => 13
  | .input => 14 | .output => 15
  | .beq => 16 | .bne => 17 | .blt => 18 | .ble => 19 | .bgt => 20 | .bge => 21
  | .hlt => 22

/-- The name of the operation in assembly text. -/
def mnemonic : Op → String
  | .nop => "NOP"
  | .add => "ADD" | .addi => "ADDI" | .sub => "SUB" | .subi => "SUBI"
  | .shr => "SHR" | .shri => "SHRI" | .xor => "XOR" | .xori => "XORI"
  | .ld => "LD" | .st => "ST" | .ldi => "LDI" | .lda => "LDA" | .sta => "STA"
  | .input => "IN" | .output => "OUT"
  | .beq => "BEQ" | .bne => "BNE" | .blt => "BLT" | .ble => "BLE" | .bgt => "BGT" | .bge => "BGE"
  | .hlt => "HLT"

/-- The operands of the operation. -/
def shape : Op → Shape
  | .nop | .hlt => .none
  | .add | .sub | .shr | .xor => .rrr
  | .addi | .subi | .shri | .xori => .rri
  | .ld | .st => .rr
  | .ldi | .lda | .sta => .ri
  | .input | .output => .r
  | .beq | .bne | .blt | .ble | .bgt | .bge => .rri

/-- The part of the machine that the operation occupies. -/
def opClass : Op → OpClass
  | .nop => .nop
  | .add | .addi | .sub | .subi | .shr | .shri | .xor | .xori => .arithmetic
  | .ld | .st | .ldi | .lda | .sta => .memory
  | .input | .output => .io
  | .beq | .bne | .blt | .ble | .bgt | .bge => .branch
  | .hlt => .halt

/-- The kinds of the operands of the operation. -/
def kinds (op : Op) : List OperandKind := op.shape.kinds

/-- The number of operands of the operation. -/
def arity (op : Op) : Nat := op.kinds.length

/-- The operation of a mnemonic, whatever the case of its letters. -/
def ofMnemonic? (mnemonic : String) : Option Op :=
  all.find? fun op => Text.sameFolded op.mnemonic mnemonic

/-- The operation of a code. -/
def ofCode? (code : Int32) : Option Op :=
  all.find? fun op => op.code == code

end Op

end TickMachine
