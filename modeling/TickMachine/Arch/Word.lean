import TickMachine.Arch.Op

/-! # Words

The content of one memory cell: plain data, or a command with its arguments in place. -/

namespace TickMachine

/-- The content of a memory cell. -/
inductive Word
  | data (value : Int32)
  | command (opcode : Int32) (args : List Int32)
  deriving DecidableEq, Repr

namespace Word

/-- The word that fills memory past the program. -/
def zero : Word := .data 0

instance : Inhabited Word := ⟨zero⟩

/-- The command of an operation. -/
def ofOp (op : Op) (args : List Int32) : Word := .command op.code args

/-- The number that a load finds in the cell: a command is read as its code. -/
def value : Word → Int32
  | .data value => value
  | .command opcode _ => opcode

/-- The code that the cell holds when it is executed. -/
def opcode : Word → Int32
  | .data value => value
  | .command opcode _ => opcode

/-- The arguments that the cell holds when it is executed. -/
def args : Word → List Int32
  | .data _ => []
  | .command _ args => args

/-- The numbers by which a word is persisted. Data and a command without arguments are both
persisted as a single number. -/
def raw : Word → List Int32
  | .data value => [value]
  | .command opcode args => opcode :: args

/-- The word persisted as a list of numbers. A single number is data, and an empty list is
refused. -/
def ofRaw? : List Int32 → Option Word
  | [] => none
  | [value] => some (.data value)
  | opcode :: args => some (.command opcode args)

end Word

/-- The message for a persisted word without numbers. -/
def Word.emptyMessage : String := "program word must hold at least one integer"

end TickMachine
