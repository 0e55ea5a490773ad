import TickMachine.Proofs.Machine.RunsBySteps
import TickMachine.Proofs.Machine.Surroundings

/-! # The size of memory

Memory behind the program holds zeros until the program stores there. So a bigger memory shows only
at an address that a smaller one refuses, and a run that the smaller memory lets pass is the same
run in the bigger one. -/

namespace TickMachine

namespace Memory

variable {memory : Memory} {address value : Int32} {extra : Nat}

/-- The memory with more zeros behind it. -/
def extended (memory : Memory) (extra : Nat) : Memory :=
  ⟨memory.cells ++ Array.replicate extra Word.zero⟩

theorem word?_extended {address : Nat} (inside : address < memory.size) :
    (memory.extended extra).word? address = memory.word? address :=
  Array.getElem?_append_left inside

theorem cell?_of_negative (negative : address.toInt < 0) : memory.cell? address = none := by
  rw [cell?, if_neg (Int.not_le.2 negative)]

theorem inside_of_cell? {word : Word} (present : memory.cell? address = some word) :
    0 ≤ address.toInt ∧ address.toInt.toNat < memory.size := by
  unfold cell? at present
  split at present
  · next nonnegative => exact ⟨nonnegative, (Array.getElem?_eq_some_iff.1 present).1⟩
  · cases present

theorem cell?_extended {word : Word} (present : memory.cell? address = some word) :
    (memory.extended extra).cell? address = some word := by
  obtain ⟨nonnegative, inside⟩ := inside_of_cell? present
  rw [cell?, if_pos nonnegative] at present ⊢
  rw [word?_extended inside, present]

theorem stored_extended {word : Word} (present : memory.cell? address = some word) :
    (memory.extended extra).stored address value = (memory.stored address value).extended extra := by
  have inside := (inside_of_cell? present).2
  exact congrArg Memory.mk (Array.setIfInBounds_append_left inside)

/-- A load finds in the bigger memory what it finds in the smaller one, unless only the smaller one
refuses the address. -/
theorem read_extended
    (refused : memory.cell? address = none → (memory.extended extra).cell? address = none) :
    (memory.extended extra).read address = memory.read address := by
  rw [read_eq, read_eq]
  cases found : memory.cell? address with
  | none => rw [refused found]
  | some word => rw [cell?_extended found]

/-- A store leaves in the bigger memory what it leaves in the smaller one, unless only the smaller
one refuses the address. -/
theorem write_extended
    (refused : memory.cell? address = none → (memory.extended extra).cell? address = none) :
    (memory.extended extra).write address value =
      (memory.write address value).map (·.extended extra) := by
  rw [write_eq, write_eq]
  cases found : memory.cell? address with
  | none =>
    rw [refused found]
    rfl
  | some word =>
    rw [cell?_extended found, stored_extended found]
    rfl

end Memory

/-- The number of cells that the larger of two scales adds to the memory of an executable. -/
def Executable.surplus (executable : Executable) (small large : Nat) : Nat :=
  max executable.program.length (executable.program.length * large) -
    max executable.program.length (executable.program.length * small)

theorem Executable.load_extended (executable : Executable) {small large : Nat}
    (le : small ≤ large) :
    Memory.load executable.program (executable.program.length * large) =
      (Memory.load executable.program (executable.program.length * small)).extended
        (executable.surplus small large) := by
  have more := Nat.mul_le_mul_left executable.program.length le
  simp only [Memory.load, Memory.extended, Executable.surplus, Array.append_assoc,
    Array.replicate_append_replicate]
  congr 3
  omega

namespace Machine

/-- The machine with more zeros behind its memory, which is the memory of another scale. -/
def enlarged (extra scale : Nat) (machine : Machine) : Machine :=
  { machine with
    path := { machine.path with memory := machine.path.memory.extended extra }
    config := { machine.config with memoryScale := scale } }

/-- The machine with another scale of memory in its limits. -/
def rescaled (scale : Nat) (machine : Machine) : Machine :=
  { machine with config := { machine.config with memoryScale := scale } }

/-- Zeros added behind the memory, to make it that of another scale. -/
def enlarging (extra scale : Nat) : Change :=
  ⟨(·.extended extra), id, fun config => { config with memoryScale := scale }⟩

/-- Another scale that gives the same memory. -/
def rescaling (scale : Nat) : Change :=
  ⟨id, id, fun config => { config with memoryScale := scale }⟩

variable {machine : Machine} {extra scale : Nat}

/-! ## Addresses that memory refuses -/

theorem answer_load {target : Register} {address : Argument}
    (performs : machine.Performs (.load target address))
    (refused : machine.path.memory.cell? (machine.value address) = none) :
    machine.answer = .error (.memoryOutOfBounds (machine.value address)) := by
  unfold answer
  rw [step_of_performs performs, execute_load, Memory.read_eq, refused]

theorem answer_store {source : Register} {address : Argument}
    (performs : machine.Performs (.store source address))
    (refused : machine.path.memory.cell? (machine.value address) = none) :
    machine.answer = .error (.memoryOutOfBounds (machine.value address)) := by
  unfold answer
  rw [step_of_performs performs, execute_store, Memory.write_eq, refused]

/-! ## Steps in a bigger memory -/

theorem fetch?_enlarging (holds : machine.HoldsProgram) :
    ((enlarging extra scale).machine machine).fetch? = machine.fetch? := by
  show (if machine.ip < machine.programLength then
    (machine.path.memory.extended extra).word? machine.ip else none) = _
  unfold fetch?
  split
  · next inside => exact Memory.word?_extended (Nat.lt_of_lt_of_le inside holds)
  · rfl

/-- A step does not see how big memory is, unless it fails at an address that only the smaller
memory refuses. -/
theorem sparesStep_enlarging (scale : Nat) (holds : machine.HoldsProgram)
    (refused : ∀ address, machine.answer = .error (.memoryOutOfBounds address) →
      (machine.path.memory.extended extra).cell? address = none) :
    (enlarging extra scale).SparesStep machine := by
  refine ⟨fetch?_enlarging holds, rfl, ?_⟩
  intro instruction performs
  cases instruction with
  | load target address =>
    exact Memory.read_extended fun outside => refused _ (answer_load performs outside)
  | store source address =>
    exact Memory.write_extended fun outside => refused _ (answer_store performs outside)
  | receive target => exact Change.spares_receive rfl target
  | nop | halt | arithmetic | loadImmediate | send | branch => trivial

theorem sparesStep_rescaling (scale : Nat) (machine : Machine) :
    (rescaling scale).SparesStep machine := by
  refine ⟨rfl, rfl, ?_⟩
  intro instruction performs
  cases instruction with
  | load target address => exact Change.spares_load rfl target address
  | store source address => exact Change.spares_store rfl source address
  | receive target => exact Change.spares_receive rfl target
  | nop | halt | arithmetic | loadImmediate | send | branch => trivial

theorem load_enlarging (executable : Executable) (input : List UInt8) (limit : Option Nat)
    {small large : Nat} (le : small ≤ large) :
    load executable input ⟨large, limit⟩ =
      (enlarging (executable.surplus small large) large).machine
        (load executable input ⟨small, limit⟩) := by
  unfold load
  rw [executable.load_extended le]
  rfl

theorem load_rescaling (executable : Executable) (input : List UInt8) (limit : Option Nat) :
    load executable input ⟨1, limit⟩ =
      (rescaling 1).machine (load executable input ⟨0, limit⟩) := by
  have same : Memory.load executable.program (executable.program.length * 1) =
      Memory.load executable.program (executable.program.length * 0) := by
    simp [Memory.load]
  unfold load
  rw [same]
  rfl

/-- Memory refuses no address that a step asks for, other than a negative one. -/
def Fits (machine : Machine) : Prop :=
  ∀ address : Int32, 0 ≤ address.toInt → machine.answer ≠ .error (.memoryOutOfBounds address)

theorem sparesStep_of_fits (extra scale : Nat) (holds : machine.HoldsProgram)
    (fits : machine.Fits) : (enlarging extra scale).SparesStep machine :=
  sparesStep_enlarging scale holds fun address failed =>
    Memory.cell?_of_negative (Int.not_le.1 fun nonnegative => fits address nonnegative failed)

/-- A run that ends without such a refusal ends in the same way in a bigger memory. -/
theorem run_of_fits (extra scale : Nat) {fuel : Nat} {outcome : Outcome}
    (holds : machine.HoldsProgram) (ends : machine.run fuel = some outcome)
    (fits : ∀ address : Int32, 0 ≤ address.toInt →
      outcome.answer ≠ .error (.memoryOutOfBounds address)) :
    ((enlarging extra scale).machine machine).run fuel =
      some ((enlarging extra scale).result outcome) := by
  refine Change.run_machine ends fun call only => ?_
  exact sparesStep_of_fits extra scale (holds.of_keeps (keeps_after machine call))
    fun address nonnegative failed => fits address nonnegative (only _ failed)

/-- More memory never changes a run that fits. As long as the smaller of two memories refuses no
address other than a negative one, the steps in the larger one answer the same and leave the same
machine, with additional zeros behind the memory. A negative address is refused by every memory, and
the scales zero and one give the same memory and the same run. -/
theorem more_memory_changes_nothing (executable : Executable) (input : List UInt8)
    (limit : Option Nat) :
    (∀ small large calls, small ≤ large →
      (∀ call < calls, ((load executable input ⟨small, limit⟩).after call).Fits) →
      (∀ call < calls, ((load executable input ⟨large, limit⟩).after call).answer =
        ((load executable input ⟨small, limit⟩).after call).answer) ∧
      (load executable input ⟨large, limit⟩).after calls =
        ((load executable input ⟨small, limit⟩).after calls).enlarged
          (executable.surplus small large) large) ∧
    (∀ small large fuel outcome, small ≤ large →
      (∀ address : Int32, 0 ≤ address.toInt →
        outcome.answer ≠ .error (.memoryOutOfBounds address)) →
      (load executable input ⟨small, limit⟩).run fuel = some outcome →
      ((load executable input ⟨large, limit⟩).run fuel).map Outcome.answer =
        some outcome.answer) ∧
    (∀ (machine : Machine) (target : Register) (address : Argument),
      machine.Performs (.load target address) ∨ machine.Performs (.store target address) →
      (machine.value address).toInt < 0 →
      machine.answer = .error (.memoryOutOfBounds (machine.value address))) ∧
    (load executable input ⟨1, limit⟩).path.memory =
      (load executable input ⟨0, limit⟩).path.memory ∧
    ∀ count,
      ((load executable input ⟨1, limit⟩).after count).answer =
        ((load executable input ⟨0, limit⟩).after count).answer ∧
      (load executable input ⟨1, limit⟩).after count =
        ((load executable input ⟨0, limit⟩).after count).rescaled 1 ∧
      ((load executable input ⟨1, limit⟩).run count).map Outcome.answer =
        ((load executable input ⟨0, limit⟩).run count).map Outcome.answer := by
  refine ⟨?_, ?_, ?_, ?_, ?_⟩
  · intro small large calls le fits
    rw [load_enlarging executable input limit le]
    have spares : ∀ call < calls, (enlarging (executable.surplus small large) large).SparesStep
        ((load executable input ⟨small, limit⟩).after call) := by
      intro call below
      have holds := (holdsProgram_load executable input ⟨small, limit⟩).of_keeps
        (keeps_after _ call)
      exact sparesStep_of_fits _ large holds (fits call below)
    exact ⟨fun call below => Change.answer_after spares below, Change.after_machine spares⟩
  · intro small large fuel outcome le fits ends
    rw [load_enlarging executable input limit le,
      run_of_fits _ large (holdsProgram_load executable input _) ends fits]
    exact congrArg some (Change.answer_result _ outcome)
  · intro machine target address performs negative
    have refused : machine.path.memory.cell? (machine.value address) = none :=
      Memory.cell?_of_negative negative
    exact performs.elim (answer_load · refused) (answer_store · refused)
  · rw [load_rescaling]
    rfl
  · intro count
    rw [load_rescaling]
    have spares (call : Nat) := sparesStep_rescaling 1
      ((load executable input ⟨0, limit⟩).after call)
    refine ⟨Change.answer_after (fun call _ => spares call) (Nat.lt_succ_self count),
      Change.after_machine fun call _ => spares call, ?_⟩
    rw [Change.run_machine_eq spares, Option.map_map]
    congr 1
    funext outcome
    exact Change.answer_result _ outcome

/-- A program that stores behind itself and then loads from a negative address. -/
theorem more_memory_changes_nothing_store :
    let program : Executable := ⟨0, [.command 11 [1, 7], .command 13 [1, 4], .command 12 [2, -1]]⟩
    ((load program [] ⟨2, none⟩).after 2).path.memory.word? 4 = some (.data 7) ∧
      (load program [] ⟨5, none⟩).after 2 =
        ((load program [] ⟨2, none⟩).after 2).enlarged 9 5 ∧
      ((load program [] ⟨5, none⟩).run (2 + 1)).map Outcome.answer =
        some (.error (.memoryOutOfBounds (-1))) := by
  intro program
  have goesOn : (load program [] ⟨2, none⟩).GoesOn 2 := by
    rw [← run_eq_none_iff, ← Option.isNone_iff_eq_none]
    decide +kernel
  have performs : ((load program [] ⟨2, none⟩).after 2).Performs (.load .r2 (.immediate (-1))) :=
    ⟨⟨.lda, #v[2, -1]⟩, ⟨by decide +kernel, .command 12 [2, -1], by decide +kernel, rfl⟩,
      by decide, by decide +kernel, rfl⟩
  obtain ⟨steps, runs, negative, -⟩ := more_memory_changes_nothing program [] none
  have fits : ∀ call < 2, ((load program [] ⟨2, none⟩).after call).Fits := by
    intro call below address nonnegative failed
    rw [goesOn call below] at failed
    cases failed
  have refused := negative _ .r2 (.immediate (-1)) (.inl performs) (by decide)
  have ends := (run_of_goesOn goesOn 1).trans (run_of_error refused 0)
  have only : ∀ address : Int32, 0 ≤ address.toInt →
      Outcome.answer (.error (.memoryOutOfBounds (-1)) ((load program [] ⟨2, none⟩).after 2).next) ≠
        .error (.memoryOutOfBounds address) := by
    intro address nonnegative same
    cases same
    exact absurd nonnegative (by decide)
  have stored : ((load program [] ⟨2, none⟩).after 2).path.memory.word? 4 = some (.data 7) := by
    decide +kernel
  have last := (steps 2 5 2 (by decide) fits).2
  exact ⟨stored, last, runs 2 5 (2 + 1) _ (by decide) only ends⟩

end Machine

end TickMachine
