import TickMachine.Proofs.Machine.Execution
import TickMachine.Proofs.Machine.History
import TickMachine.Proofs.Machine.Memory
import TickMachine.Proofs.Program.PersistedForm

/-! # Machines on persisted programs

A machine whose memory holds the persisted form of every word makes the same steps as the machine
itself. Each step of the one is the persisted form of the step of the other, so that by induction
whole histories and whole runs agree. -/

namespace TickMachine

/-- The memory with every word in its persisted form. -/
def Memory.persisted (memory : Memory) : Memory := ⟨memory.cells.map Word.persisted⟩

/-- The data path with its memory in persisted form. -/
def DataPath.persisted (path : DataPath) : DataPath :=
  { path with memory := path.memory.persisted }

/-- The machine with its memory in persisted form. -/
def Machine.persisted (machine : Machine) : Machine :=
  { machine with path := machine.path.persisted }

/-! ## Memory -/

namespace Memory

variable (memory : Memory) (address value : Int32)

theorem word?_persisted (place : Nat) :
    memory.persisted.word? place = (memory.word? place).map Word.persisted := by
  simp [word?, persisted]

theorem cell?_persisted :
    memory.persisted.cell? address = (memory.cell? address).map Word.persisted := by
  unfold cell?
  split
  · exact word?_persisted memory _
  · rfl

theorem read_persisted : memory.persisted.read address = memory.read address := by
  rw [read_eq, read_eq, cell?_persisted]
  cases memory.cell? address with
  | none => rfl
  | some word => exact congrArg Except.ok word.value_persisted

theorem write_persisted :
    memory.persisted.write address value = (memory.write address value).map persisted := by
  rw [write_eq, write_eq, cell?_persisted]
  cases memory.cell? address with
  | none => rfl
  | some word => simp [Except.map, stored, persisted]

theorem load_persisted (program : List Word) (capacity : Nat) :
    load (program.map Word.persisted) capacity = (load program capacity).persisted := by
  simp [load, persisted]

end Memory

/-! ## Steps -/

namespace Machine

/-- The result of a control sequence with the machine in persisted form. -/
def persistedResult {α : Type} : EStateM.Result Fault Machine α → EStateM.Result Fault Machine α
  | .ok answer machine => .ok answer machine.persisted
  | .error fault machine => .error fault machine.persisted

theorem load_persisted (executable : Executable) (input : List UInt8) (config : Config) :
    load executable.persisted input config = (load executable input config).persisted := by
  simp [load, persisted, DataPath.persisted, Executable.persisted, Memory.load_persisted]

variable (machine : Machine)

theorem compute_persisted (path : DataPath) (op : Op) (left right : Int32) :
    compute path.persisted op left right = (compute path op left right).persisted := by
  unfold compute
  split <;> rfl

theorem value_persisted (argument : Argument) :
    machine.persisted.value argument = machine.value argument := by
  cases argument <;> rfl

theorem execute_persisted (instruction : Instruction) :
    execute instruction machine.persisted = persistedResult (execute instruction machine) := by
  have path : machine.persisted.path = machine.path.persisted := rfl
  have register (name : Register) : machine.persisted.register name = machine.register name := rfl
  have memory : machine.path.persisted.memory = machine.path.memory.persisted := rfl
  cases instruction with
  | nop | halt | loadImmediate | send => rfl
  | arithmetic op target left right =>
    simp only [execute_arithmetic, path, register, value_persisted, compute_persisted]
    rfl
  | load target address =>
    simp only [execute_load, path, memory, value_persisted, Memory.read_persisted]
    cases machine.path.memory.read (machine.value address) <;> rfl
  | store source address =>
    simp only [execute_store, path, memory, register, value_persisted, Memory.write_persisted]
    cases machine.path.memory.write (machine.value address) (machine.register source) <;> rfl
  | receive target =>
    have input : machine.path.persisted.input = machine.path.input := rfl
    simp only [execute_receive, path, input]
    cases machine.path.input <;> rfl
  | branch op left right target =>
    simp only [execute_branch, path, register, compute_persisted]
    have truth (path : DataPath) : path.persisted.truth = path.truth := rfl
    rw [truth]
    split
    · split <;> rfl
    · rfl

theorem dispatch_persisted (word : Word) :
    dispatch word.persisted machine.persisted = persistedResult (dispatch word machine) := by
  have decode : word.persisted.decode machine.persisted.ip = word.decode machine.ip := by
    simp [Word.decode, persisted]
  have refusal (op : Op) : machine.persisted.refusal? op = machine.refusal? op := rfl
  rw [dispatch_eq, dispatch_eq, decode]
  cases word.decode machine.ip with
  | error fault => rfl
  | ok decoded =>
    simp only [refusal]
    cases machine.refusal? decoded.op with
    | some fault => rfl
    | none =>
      cases decoded.instruction with
      | error fault => rfl
      | ok instruction => exact execute_persisted machine instruction

theorem fetch?_persisted : machine.persisted.fetch? = machine.fetch?.map Word.persisted := by
  have inside : machine.persisted.ip < machine.persisted.programLength ↔
      machine.ip < machine.programLength := Iff.rfl
  simp only [fetch?, inside]
  split
  · exact Memory.word?_persisted machine.path.memory machine.ip
  · rfl

/-- A step of the persisted machine is the persisted form of the step. -/
theorem step_persisted : step machine.persisted = persistedResult (step machine) := by
  by_cases running : machine.status = .running
  · rw [step_of_running machine running, step_of_running machine.persisted running,
      fetch?_persisted]
    cases machine.fetch? with
    | none => rfl
    | some word => exact dispatch_persisted machine word
  · rw [step_of_stopped machine running, step_of_stopped machine.persisted running]
    rfl

/-! ## Histories and runs -/

theorem answer_persisted : machine.persisted.answer = machine.answer := by
  unfold answer
  rw [step_persisted]
  cases step machine <;> rfl

theorem next_persisted : machine.persisted.next = machine.next.persisted := by
  unfold next
  rw [step_persisted]
  cases step machine <;> rfl

theorem after_persisted (calls : Nat) :
    machine.persisted.after calls = (machine.after calls).persisted := by
  induction calls generalizing machine with
  | zero => rfl
  | succ calls ih =>
    rw [after, next_persisted, ih]
    rfl

/-- A run of the persisted machine ends after as many steps, in the persisted form of the machine,
and with the same report or fault. -/
theorem run_persisted (fuel : Nat) :
    run fuel machine.persisted = (run fuel machine).map persistedResult := by
  induction fuel generalizing machine with
  | zero => rfl
  | succ fuel ih =>
    rw [run, run, step_persisted]
    cases step machine with
    | error fault machine => rfl
    | ok goesOn machine =>
      cases goesOn with
      | true => exact ih machine
      | false => rfl

end Machine

end TickMachine
