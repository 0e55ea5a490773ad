import TickMachine.Arch.Word

/-! # Executables

A linked program, ready to be loaded into memory from address zero. -/

namespace TickMachine

/-- A linked program and the address at which execution starts. -/
structure Executable where
  start : Nat
  program : List Word
  deriving DecidableEq, Repr, Inhabited

end TickMachine
