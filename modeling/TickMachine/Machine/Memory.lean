import TickMachine.Arch.Word
import TickMachine.Machine.Fault

/-! # Memory

Word-addressed memory, which holds the program from address zero on and zeros behind it. -/

namespace TickMachine

/-- The memory of a machine. -/
structure Memory where
  cells : Array Word := #[]
  deriving DecidableEq, Repr, Inhabited

namespace Memory

/-- The memory without cells. -/
def empty : Memory := {}

/-- The memory that holds a program, with zeros behind it up to a capacity. A capacity below the
length of the program counts as that length. -/
def load (program : List Word) (capacity : Nat) : Memory where
  cells := program.toArray ++ Array.replicate (capacity - program.length) Word.zero

/-- The number of cells. -/
def size (memory : Memory) : Nat := memory.cells.size

/-- Whether there are no cells. -/
def isEmpty (memory : Memory) : Bool := memory.cells.isEmpty

/-- The word at an address. -/
def word? (memory : Memory) (address : Nat) : Option Word := memory.cells[address]?

/-- The cell that a machine value addresses. -/
def locate (memory : Memory) (address : Int32) : Except Fault (Fin memory.cells.size) :=
  if h : 0 ≤ address.toInt ∧ address.toInt.toNat < memory.cells.size then
    .ok ⟨address.toInt.toNat, h.2⟩
  else .error (.memoryOutOfBounds address)

/-- The number that a load finds at an address. -/
def read (memory : Memory) (address : Int32) : Except Fault Int32 :=
  match memory.locate address with
  | .ok cell => .ok memory.cells[cell].value
  | .error fault => .error fault

/-- The memory after a store in a cell, which leaves data there. -/
def put (memory : Memory) (cell : Fin memory.cells.size) (value : Int32) : Memory where
  cells := memory.cells.set cell (.data value)

/-- The memory after a store at an address. -/
def write (memory : Memory) (address value : Int32) : Except Fault Memory :=
  match memory.locate address with
  | .ok cell => .ok (memory.put cell value)
  | .error fault => .error fault

end Memory

end TickMachine
