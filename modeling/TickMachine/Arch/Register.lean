import TickMachine.Text.Fold

/-! # Registers

The eight general registers, their codes in commands and their names in assembly text. -/

namespace TickMachine

/-- A general register. -/
inductive Register
  | r0 | r1 | r2 | r3 | r4 | r5 | r6 | r7
  deriving DecidableEq, Repr, Inhabited

namespace Register

/-- Every register, in the order of the codes. -/
def all : List Register := [.r0, .r1, .r2, .r3, .r4, .r5, .r6, .r7]

/-- The place of the register in the register file. -/
def index : Register → Fin 8
  | .r0 => 0 | .r1 => 1 | .r2 => 2 | .r3 => 3 | .r4 => 4 | .r5 => 5 | .r6 => 6 | .r7 => 7

/-- The code by which a command names the register. -/
def code (register : Register) : Int32 := Int32.ofNat register.index

/-- The name of the register, without the mark that introduces it in assembly text. -/
def name : Register → String
  | .r0 => "R0" | .r1 => "R1" | .r2 => "R2" | .r3 => "R3"
  | .r4 => "R4" | .r5 => "R5" | .r6 => "R6" | .r7 => "R7"

/-- The register as it stands in assembly text. -/
def text (register : Register) : String := "%" ++ register.name

/-- The register of a name, whatever the case of its letter. -/
def ofName? (name : String) : Option Register :=
  all.find? fun register => Text.sameFolded register.name name

/-- The register of a code. -/
def ofCode? (code : Int32) : Option Register :=
  all.find? fun register => register.code == code

end Register

end TickMachine
