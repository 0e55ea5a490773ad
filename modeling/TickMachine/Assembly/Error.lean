import TickMachine.Arch.Op
import TickMachine.Source.Token

/-! # Assembly errors

Why a source text is refused, and the wording of each reason. -/

namespace TickMachine

/-- The mnemonic that places data into the program. -/
def dataMnemonic : String := "WORD"

/-- The label at which execution starts. -/
def startLabel : String := "_start"

/-- Why a source text is refused. -/
inductive AssemblyError
  | lexical (error : LexError)
  | unexpectedToken (found : Token)
  | unknownInstruction (mnemonic : String)
  | invalidRegister (name : String)
  | operandKind (op : Op) (expected : OperandKind) (found : Token)
  | dataKind (found : Token)
  | missingOperand (op : Op)
  | missingData
  | invalidNumber (text : String)
  | labelRedefinition (label : String)
  | undefinedLabel (label : String)
  | missingStartLabel
  | programTooLarge
  deriving DecidableEq, Repr

namespace AssemblyError

/-- The message for an argument of the wrong kind. -/
def kindMessage (mnemonic expected : String) (found : Token) : String :=
  s!"{mnemonic} expects a {expected} argument, got {found.text}"

/-- The message for a program that ends before the last argument. -/
def endMessage (mnemonic : String) (expected : Nat) : String :=
  s!"unexpected end of program: {mnemonic} expects {Decimal.ofNat expected} argument(s)"

/-- The message of an assembly error. -/
def message : AssemblyError → String
  | .lexical error => s!"lexer error: {error.message}"
  | .unexpectedToken found => s!"unexpected token: {found.text}"
  | .unknownInstruction mnemonic => s!"unknown instruction: {mnemonic}"
  | .invalidRegister name => s!"invalid register: {name}"
  | .operandKind op expected found => kindMessage op.mnemonic expected.text found
  | .dataKind found => kindMessage dataMnemonic "number or string" found
  | .missingOperand op => endMessage op.mnemonic op.arity
  | .missingData => endMessage dataMnemonic 1
  | .invalidNumber text => s!"invalid number: {text}"
  | .labelRedefinition label => s!"label redefinition: {label}"
  | .undefinedLabel label => s!"undefined label: {label}"
  | .missingStartLabel => s!"start label ({startLabel}) not found"
  | .programTooLarge => "program does not fit in the address space"

end AssemblyError

end TickMachine
