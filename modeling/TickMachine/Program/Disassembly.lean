import TickMachine.Arch.Register
import TickMachine.Arch.Word
import TickMachine.Text.Decimal

/-! # Disassembly

Words in the notation of assembly text. A command is written as its mnemonic and its operands; it
has no text when the machine could not decode it. -/

namespace TickMachine

/-- Why a command has no text. -/
inductive DisassemblyError
  | unknownOpcode (opcode : Int32)
  | unknownRegister (code : Int32)
  | argumentCount (op : Op) (expected got : Nat)
  deriving DecidableEq, Repr

/-- The message of a disassembly error. -/
def DisassemblyError.message : DisassemblyError → String
  | .unknownOpcode opcode => s!"unknown opcode {Decimal.ofInt32 opcode}"
  | .unknownRegister code => s!"register with code {Decimal.ofInt32 code} doesn't exist"
  | .argumentCount op expected got =>
    s!"unexpected number of arguments for {op.mnemonic}: expected {Decimal.ofNat expected}, " ++
      s!"got {Decimal.ofNat got}"

namespace Disassembly

/-- The text of the register with a code. -/
def register (code : Int32) : Except DisassemblyError String :=
  match Register.ofCode? code with
  | some register => .ok register.text
  | none => .error (.unknownRegister code)

/-- The text of an immediate, or of a word of data. -/
def immediate (value : Int32) : String := Decimal.ofInt32 value

/-- The text of an operand of a kind. -/
def operand (kind : OperandKind) (value : Int32) : Except DisassemblyError String :=
  match kind with
  | .register => register value
  | .immediate => .ok (immediate value)

/-- The texts of the operands, or the error of the first operand that has none. -/
def operands : List OperandKind → List Int32 → Except DisassemblyError (List String)
  | kind :: kinds, value :: values => do
    let text ← operand kind value
    let texts ← operands kinds values
    return text :: texts
  | _, _ => return []

/-- The text of a command: its mnemonic, then its operands with commas between them. -/
def command (opcode : Int32) (args : List Int32) : Except DisassemblyError String :=
  match Op.ofCode? opcode with
  | none => .error (.unknownOpcode opcode)
  | some op =>
    if args.length ≠ op.arity then .error (.argumentCount op op.arity args.length)
    else do
      match ← operands op.kinds args with
      | [] => return op.mnemonic
      | texts => return op.mnemonic ++ " " ++ ", ".intercalate texts

end Disassembly

/-- The text of a word: data in decimal, and a command with its mnemonic and operands. -/
def Word.disassemble : Word → Except DisassemblyError String
  | .data value => .ok (Disassembly.immediate value)
  | .command opcode args => Disassembly.command opcode args

end TickMachine
