import TickMachine.Machine.Step

/-! # Execution of an instruction

The control sequences of the machine written out as one result each: the machine after an
instruction, or the fault together with what the instruction had done before it failed. What is
proved about steps rests on these equations and does not open the sequences again. -/

namespace TickMachine.Machine

/-- The machine after an instruction of one tick that leaves the data path at `path`. -/
def completeShort (machine : Machine) (path : DataPath) : Machine :=
  { machine with
    path
    ticks := Counter.next machine.ticks
    ip := machine.ip + 1
    instructions := Counter.next machine.instructions }

/-- The machine after an instruction of two ticks that leaves the data path at `path`. -/
def completeLong (machine : Machine) (path : DataPath) : Machine :=
  { machine with
    path
    ticks := Counter.next (Counter.next machine.ticks)
    ip := machine.ip + 1
    instructions := Counter.next machine.instructions }

/-- The machine that an instruction leaves behind when it fails after its first tick. -/
def abandon (machine : Machine) (path : DataPath) : Machine :=
  { machine with path, ticks := Counter.next machine.ticks }

/-- The data path after a signal of the arithmetic unit. -/
def compute (path : DataPath) (op : Op) (left right : Int32) : DataPath :=
  match op.result? left right with
  | some value => { path with aluResult := value }
  | none =>
    { path with
      truth := op.holds left right
      aluResult := if op.holds left right then 1 else 0 }

/-- The data path after a register has been written. -/
def assign (path : DataPath) (target : Register) (value : Int32) : DataPath :=
  { path with registers := path.registers.set target value }

/-! ## The instructions -/

theorem latchAddress_apply (address : Int32) (path : DataPath) :
    DataPath.latchAddress address path = .ok () { path with dataAddress := address } := rfl

section

variable (machine : Machine)

theorem get_apply : (get : Control Machine) machine = .ok machine machine := rfl

theorem tick_apply :
    tick machine = .ok () { machine with ticks := Counter.next machine.ticks } := rfl

theorem execute_arithmetic (op : Op) (target left : Register) (right : Argument) :
    execute (.arithmetic op target left right) machine =
      let path := compute machine.path op (machine.register left) (machine.value right)
      .ok true (machine.completeLong (assign path target path.aluResult)) := rfl

theorem execute_load (target : Register) (address : Argument) :
    execute (.load target address) machine =
      let path := { machine.path with dataAddress := machine.value address }
      match machine.path.memory.read (machine.value address) with
      | .ok value => .ok true (machine.completeLong (assign path target value))
      | .error fault => .error fault (machine.abandon path) := by
  simp only [execute, bind, EStateM.bind, get_apply, signal,
    latchAddress_apply, DataPath.latchRegister, tick_apply]
  cases machine.path.memory.read (machine.value address) <;> rfl

theorem execute_store (source : Register) (address : Argument) :
    execute (.store source address) machine =
      let path := { machine.path with dataAddress := machine.value address }
      match machine.path.memory.write (machine.value address) (machine.register source) with
      | .ok memory => .ok true (machine.completeLong { path with memory })
      | .error fault => .error fault (machine.abandon path) := by
  simp only [execute, bind, EStateM.bind, get_apply, signal,
    latchAddress_apply, DataPath.storeRegister, tick_apply, Memory.write]
  cases machine.path.memory.locate (machine.value address) <;> rfl

theorem execute_receive (target : Register) :
    execute (.receive target) machine =
      match machine.path.input with
      | [] => .error .inputExhausted machine
      | byte :: input =>
        .ok true (machine.completeShort
          { assign machine.path target (Int32.ofNat byte.toNat) with input }) := by
  simp only [execute, bind, EStateM.bind, signal, DataPath.latchRegister]
  cases machine.path.input <;> rfl

theorem execute_send (source : Register) :
    execute (.send source) machine =
      .ok true (machine.completeShort
        { machine.path with
          output := machine.path.output.push (DataPath.lowByte (machine.register source)) }) := rfl

/-- A branch compares, spends its tick, and only then looks at its target. -/
theorem execute_branch (op : Op) (left right : Register) (target : Int32) :
    execute (.branch op left right target) machine =
      let path := compute machine.path op (machine.register left) (machine.register right)
      if path.truth then
        if 0 ≤ target.toInt then
          .ok true { machine.completeShort path with ip := target.toInt.toNat }
        else .error (.invalidBranchTarget target) (machine.abandon path)
      else .ok true (machine.completeShort path) := by
  let path := compute machine.path op (machine.register left) (machine.register right)
  have compared : execute (.branch op left right target) machine =
      (if path.truth then do jump target; retire else do advance; retire : Control Bool)
        (machine.abandon path) := rfl
  rw [compared]
  by_cases taken : path.truth
  · by_cases nonnegative : 0 ≤ target.toInt
    · simp only [taken, path, nonnegative, if_true, jump]
      rfl
    · simp only [taken, path, nonnegative, if_true, if_false, jump]
      rfl
  · simp only [taken, path]
    rfl

/-! ## Steps -/

/-- The fault with which the step limit refuses an operation, if it does. -/
def refusal? (op : Op) : Option Fault :=
  match machine.config.stepLimit with
  | some limit =>
    if op ≠ .hlt ∧ limit ≤ machine.instructions then some (.stepLimitExceeded limit) else none
  | none => none

theorem checkLimit_eq (op : Op) :
    checkLimit op machine =
      match machine.refusal? op with
      | some fault => .error fault machine
      | none => .ok () machine := by
  simp only [checkLimit, refusal?, bind, EStateM.bind, get_apply]
  cases machine.config.stepLimit with
  | none => rfl
  | some limit =>
    by_cases refused : op ≠ .hlt ∧ limit ≤ machine.instructions
    · simp only [refused, and_self, if_true, ne_eq, not_false_eq_true]
      rfl
    · simp only [refused, if_false]
      rfl

/-- A word passes three checks, in this order, before it is executed; none of them changes the
machine. -/
theorem dispatch_eq (word : Word) :
    dispatch word machine =
      match word.decode machine.ip with
      | .error fault => .error fault machine
      | .ok decoded =>
        match machine.refusal? decoded.op with
        | some fault => .error fault machine
        | none =>
          match decoded.instruction with
          | .error fault => .error fault machine
          | .ok instruction => execute instruction machine := by
  simp only [dispatch, bind, EStateM.bind, get_apply]
  cases word.decode machine.ip with
  | error fault => rfl
  | ok decoded =>
    simp only [ofExcept, pure, EStateM.pure, checkLimit_eq]
    cases machine.refusal? decoded.op with
    | some fault => rfl
    | none =>
      cases decoded.instruction with
      | error fault => rfl
      | ok instruction => rfl

theorem step_of_stopped (stopped : machine.status ≠ .running) :
    step machine = .ok false machine := by
  simp only [step, bind, EStateM.bind, get_apply, stopped, ne_eq,
    not_false_eq_true, if_true]
  rfl

/-- The word at the instruction pointer, where that is inside the program. -/
def fetch? : Option Word :=
  if machine.ip < machine.programLength then machine.path.memory.word? machine.ip else none

theorem word?_of_fetch? {word : Word} (fetched : machine.fetch? = some word) :
    machine.path.memory.word? machine.ip = some word := by
  unfold fetch? at fetched
  split at fetched
  · exact fetched
  · cases fetched

/-- A running machine executes the word that it fetches, and ends when there is none. -/
theorem step_of_running (running : machine.status = .running) :
    step machine =
      match machine.fetch? with
      | none => .ok false { machine with status := .ended }
      | some word => dispatch word machine := by
  simp only [step, bind, EStateM.bind, get_apply, running, ne_eq,
    not_true_eq_false, if_false, fetch?]
  by_cases inside : machine.ip < machine.programLength
  · simp only [inside, Nat.not_le.2 inside, if_true, if_false]
    cases machine.path.memory.word? machine.ip <;> rfl
  · simp only [inside, Nat.not_lt.1 inside, if_true, if_false]
    rfl

end

end TickMachine.Machine
