import TickMachine.Machine.Memory

/-! # Cells of memory

A load and a store both come down to the cell that a machine value addresses, where there is
one. -/

namespace TickMachine.Memory

/-- The word in the cell that a machine value addresses. -/
def cell? (memory : Memory) (address : Int32) : Option Word :=
  if 0 ≤ address.toInt then memory.word? address.toInt.toNat else none

/-- The memory with data in the cell that a machine value addresses. -/
def stored (memory : Memory) (address value : Int32) : Memory :=
  ⟨memory.cells.setIfInBounds address.toInt.toNat (.data value)⟩

variable (memory : Memory) (address value : Int32)

theorem cell?_of_inside (inside : 0 ≤ address.toInt ∧ address.toInt.toNat < memory.cells.size) :
    memory.cell? address = some memory.cells[address.toInt.toNat] := by
  rw [cell?, if_pos inside.1, word?]
  exact Array.getElem?_eq_getElem inside.2

theorem cell?_of_outside
    (outside : ¬(0 ≤ address.toInt ∧ address.toInt.toNat < memory.cells.size)) :
    memory.cell? address = none := by
  unfold cell?
  split
  · next nonnegative => exact Array.getElem?_eq_none (by omega)
  · rfl

theorem read_eq :
    memory.read address =
      match memory.cell? address with
      | some word => .ok word.value
      | none => .error (.memoryOutOfBounds address) := by
  by_cases inside : 0 ≤ address.toInt ∧ address.toInt.toNat < memory.cells.size
  · rw [cell?_of_inside memory address inside, read, locate, dif_pos inside]
    rfl
  · rw [cell?_of_outside memory address inside, read, locate, dif_neg inside]

theorem write_eq :
    memory.write address value =
      match memory.cell? address with
      | some _ => .ok (memory.stored address value)
      | none => .error (.memoryOutOfBounds address) := by
  by_cases inside : 0 ≤ address.toInt ∧ address.toInt.toNat < memory.cells.size
  · rw [cell?_of_inside memory address inside, write, locate, dif_pos inside, stored,
      Array.setIfInBounds, dif_pos inside.2]
    rfl
  · rw [cell?_of_outside memory address inside, write, locate, dif_neg inside]

/-- Loads that find the same number, or none, at an address have the same result. -/
theorem read_eq_of_toOption {memory other : Memory} {address : Int32}
    (same : (memory.read address).toOption = (other.read address).toOption) :
    memory.read address = other.read address := by
  rw [read_eq, read_eq] at same ⊢
  cases found : memory.cell? address with
  | none =>
    cases found' : other.cell? address with
    | none => rfl
    | some word => simp [found, found', Except.toOption] at same
  | some word =>
    cases found' : other.cell? address with
    | none => simp [found, found', Except.toOption] at same
    | some word' => simpa [found, found', Except.toOption] using same

end TickMachine.Memory
