import TickMachine.Proofs.Arch.Catalog
import TickMachine.Proofs.Machine.Indexed
import TickMachine.Proofs.Machine.RunsBySteps

/-! # Indices stay in range

A decoded word has as many arguments as its operation takes, a register's code is looked up before
the register is used, and an address is checked before the cell is. The sequences by index come to
what the machine does, then, and a machine that calls have led to keeps the memory in which its
program lies, so that the instruction pointer finds a word wherever it is inside the program. -/

namespace TickMachine

namespace Indexed

variable {α β : Type} {machine : Machine}

/-! ## Sequences without indices -/

theorem inRange_bind (control : Control α) (rest : α → Control β) :
    inRange (control >>= rest) = inRange control >>= fun answer => inRange (rest answer) := by
  funext machine
  simp only [inRange, bind, EStateM.bind]
  cases control machine <;> rfl

theorem inRange_get : inRange (get : Control Machine) = get := rfl

theorem get_bind_apply (rest : Machine → Sequence α) :
    (get >>= rest) machine = rest machine machine := rfl

theorem throw_bind (stop : Stop) (rest : α → Sequence β) : throw stop >>= rest = throw stop := rfl

/-- A sequence by index that comes to a sequence without them uses no index outside its range. -/
theorem inRange_ne_outOfRange (control : Control α) (left : Machine) :
    inRange control machine ≠ .error .outOfRange left := by
  unfold inRange
  split <;> simp

/-! ## Items -/

theorem item_of_present {list : List α} {index : Nat} {found : α}
    (present : list[index]? = some found) : item list index = pure found := by
  rw [item, present]

/-- The arguments of a decoded word lie at the indices below their number. -/
theorem item_toList {size : Nat} (args : Vector Int32 size) {index : Nat} (inside : index < size) :
    item args.toList index = pure args[index] :=
  item_of_present (by simp [inside])

theorem register_bind_of_named {code : Int32} {name : Register}
    (named : Register.ofCode? code = some name) (rest : Nat → Sequence α) :
    register code >>= rest = rest name.index := by
  have place := Register.code_toInt name
  rw [Register.ofCode?_eq_some_iff.1 named] at place
  have inside := name.index.isLt
  rw [register, if_pos (by omega), place, Int.toNat_natCast, pure_bind]

theorem register_bind_of_unnamed {code : Int32} (unnamed : Register.ofCode? code = none)
    (rest : Nat → Sequence α) :
    register code >>= rest = throw (.fault (.invalidRegister code)) := by
  rw [register, if_neg (Register.ofCode?_eq_none_iff.1 unnamed), throw_bind]

/-- The index of a register is below the number of registers, so that its content is found. -/
theorem readRegister_bind_apply (name : Register) (rest : Int32 → Sequence α) :
    (readRegister name.index >>= rest) machine = rest (machine.register name) machine := by
  have present : machine.path.registers.values.toList[name.index.val]? =
      some (machine.register name) := by
    simp [Machine.register, DataPath.register, RegisterFile.get]
  simp only [readRegister, bind_assoc, get_bind_apply, item_of_present present, pure_bind]

theorem writeRegister_index (name : Register) (value : Int32) :
    writeRegister name.index value =
      inRange (Machine.signal (DataPath.latchRegister name (.immediate value))) := by
  funext machine
  simp only [writeRegister, get_bind_apply, name.index.isLt, dite_true]
  rfl

/-! ## Signals -/

theorem latchRegister_alu (target : Register) :
    inRange (Machine.signal (DataPath.latchRegister target .alu)) =
      get >>= fun machine => writeRegister target.index machine.path.aluResult := by
  funext machine
  rw [get_bind_apply, writeRegister_index]
  rfl

/-- A cell whose address has been checked is there. -/
theorem item_cells {index : Nat} (inside : index < machine.path.memory.cells.size) :
    item machine.path.memory.cells.toList index = pure machine.path.memory.cells[index] :=
  item_of_present (by simp [inside])

/-- A load checks the latched address, and finds a cell at it. -/
theorem latchRegister_memory (target : Register) :
    inRange (Machine.signal (DataPath.latchRegister target .memory)) =
      (do writeRegister target.index (← readCell (← cell))) := by
  funext machine
  simp only [cell, bind_assoc, get_bind_apply]
  by_cases inside : 0 ≤ machine.path.dataAddress.toInt ∧
      machine.path.dataAddress.toInt.toNat < machine.path.memory.cells.size
  · simp only [inside, and_self, if_true, pure_bind, readCell, bind_assoc, get_bind_apply,
      item_cells inside.2, writeRegister_index]
    simp only [inRange, Machine.signal, DataPath.latchRegister, Memory.read, Memory.locate]
    rw [dif_pos inside]
    rfl
  · simp only [inside, if_false, throw_bind]
    simp only [inRange, Machine.signal, DataPath.latchRegister, Memory.read, Memory.locate]
    rw [dif_neg inside]
    rfl

/-- A store checks the latched address, and finds a cell at it. -/
theorem storeRegister_index (source : Register) :
    inRange (Machine.signal (DataPath.storeRegister source)) =
      (do
        let value ← readRegister source.index
        writeCell (← cell) value) := by
  funext machine
  simp only [readRegister_bind_apply, cell, bind_assoc, get_bind_apply]
  by_cases inside : 0 ≤ machine.path.dataAddress.toInt ∧
      machine.path.dataAddress.toInt.toNat < machine.path.memory.cells.size
  · simp only [inside, and_self, if_true, pure_bind, writeCell, get_bind_apply, dite_true]
    simp only [inRange, Machine.signal, DataPath.storeRegister, Memory.locate]
    rw [dif_pos inside]
    rfl
  · simp only [inside, if_false, throw_bind]
    simp only [inRange, Machine.signal, DataPath.storeRegister, Memory.locate]
    rw [dif_neg inside]
    rfl

/-! ## Operations -/

/-- An argument that names a register by its code is looked up in the same way by index. The
sequences behind the look-up need to come to the same only where the code is that of a register. -/
theorem lookup_apply {code : Int32} {rest : Nat → Sequence Bool}
    {named : Register → Except Fault Instruction}
    (agree : ∀ name, rest name.index machine =
      inRange (ofExcept (named name) >>= Machine.execute) machine) :
    (register code >>= rest) machine =
      inRange (ofExcept (Instruction.register code >>= named) >>= Machine.execute) machine := by
  cases found : Register.ofCode? code with
  | none =>
    rw [register_bind_of_unnamed found, Instruction.register, found]
    rfl
  | some name =>
    rw [register_bind_of_named found, agree name, Instruction.register, found]
    rfl

variable {op : Op}

theorem arithmetic_apply (target left : Register) (right : Argument) :
    (do
      inRange (Machine.signal
        (DataPath.latchAlu op (machine.register left) (machine.value right)))
      inRange Machine.tick
      writeRegister target.index (← get).path.aluResult
      inRange Machine.tick
      inRange Machine.advance
      inRange Machine.retire) machine =
      inRange (Machine.execute (.arithmetic op target left right)) machine := by
  simp only [Machine.execute, inRange_bind, inRange_get, get_bind_apply, latchRegister_alu,
    bind_assoc]

theorem execute_arithmetic_rrr (occupies : op.opClass = .arithmetic) (shape : op.shape = .rrr)
    (args : Vector Int32 3) :
    execute op args.toList = inRange (ofExcept
      (Instruction.ofRrr (fun target left right => .arithmetic op target left (.register right))
        args) >>= Machine.execute) := by
  funext machine
  simp only [execute, occupies, arithmetic, operand, shape, decide_true, if_true, bind_assoc,
    item_toList args (by decide : 0 < 3), item_toList args (by decide : 1 < 3),
    item_toList args (by decide : 2 < 3), pure_bind]
  refine lookup_apply fun target => ?_
  refine lookup_apply fun left => ?_
  rw [readRegister_bind_apply]
  refine lookup_apply fun right => ?_
  rw [readRegister_bind_apply]
  exact arithmetic_apply target left (.register right)

theorem execute_arithmetic_rri (occupies : op.opClass = .arithmetic) (shape : op.shape = .rri)
    (args : Vector Int32 3) :
    execute op args.toList = inRange (ofExcept
      (Instruction.ofRri (fun target left right => .arithmetic op target left (.immediate right))
        args) >>= Machine.execute) := by
  funext machine
  simp only [execute, occupies, arithmetic, operand, shape, reduceCtorEq, decide_false,
    Bool.false_eq_true, if_false, bind_assoc,
    item_toList args (by decide : 0 < 3), item_toList args (by decide : 1 < 3),
    item_toList args (by decide : 2 < 3), pure_bind]
  refine lookup_apply fun target => ?_
  refine lookup_apply fun left => ?_
  rw [readRegister_bind_apply]
  exact arithmetic_apply target left (.immediate args[2])

theorem execute_branch_rri (occupies : op.opClass = .branch) (args : Vector Int32 3) :
    execute op args.toList =
      inRange (ofExcept (Instruction.ofRri (.branch op) args) >>= Machine.execute) := by
  funext machine
  simp only [execute, occupies, branch, bind_assoc,
    item_toList args (by decide : 0 < 3), item_toList args (by decide : 1 < 3),
    item_toList args (by decide : 2 < 3), pure_bind]
  refine lookup_apply fun left => ?_
  rw [readRegister_bind_apply]
  refine lookup_apply fun right => ?_
  rw [readRegister_bind_apply]
  change _ = inRange (Machine.execute (.branch op left right args[2])) machine
  have either (taken : Bool) (control other : Control Unit) :
      ((if taken then inRange control else inRange other) >>= fun _ => inRange Machine.retire) =
        inRange (if taken then control >>= fun _ => Machine.retire
          else other >>= fun _ => Machine.retire) := by
    cases taken <;> exact (inRange_bind _ _).symm
  simp only [Machine.execute, inRange_bind, inRange_get, get_bind_apply, either]

theorem access_load (loads : op = .ld ∨ op = .lda) (target : Register) (address : Argument) :
    (access op target.index (machine.value address) >>= fun _ => inRange Machine.retire) machine =
      inRange (Machine.execute (.load target address)) machine := by
  simp only [access, loads, if_true, Machine.execute, inRange_bind, inRange_get, get_bind_apply,
    latchRegister_memory, bind_assoc]

theorem access_store (stores : op = .st ∨ op = .sta) (source : Register) (address : Argument) :
    (access op source.index (machine.value address) >>= fun _ => inRange Machine.retire) machine =
      inRange (Machine.execute (.store source address)) machine := by
  have other : ¬(op = .ld ∨ op = .lda) := by rcases stores with rfl | rfl <;> decide
  simp only [access, other, if_false, Machine.execute, inRange_bind, inRange_get, get_bind_apply,
    storeRegister_index, bind_assoc]

theorem execute_memory_rr {make : Register → Argument → Instruction}
    (occupies : op.opClass = .memory) (shape : op.shape = .rr)
    (agree : ∀ (machine : Machine) (target : Register) (address : Argument),
      (access op target.index (machine.value address) >>= fun _ => inRange Machine.retire) machine =
        inRange (Machine.execute (make target address)) machine)
    (args : Vector Int32 2) :
    execute op args.toList = inRange (ofExcept
      (Instruction.ofRr (fun target address => make target (.register address)) args) >>=
        Machine.execute) := by
  have other : op ≠ .ldi := by
    rintro rfl
    cases shape
  funext machine
  simp only [execute, occupies, memory, operand, shape, other, decide_true, if_true, if_false,
    bind_assoc, item_toList args (by decide : 0 < 2), item_toList args (by decide : 1 < 2),
    pure_bind]
  refine lookup_apply fun target => ?_
  refine lookup_apply fun address => ?_
  rw [readRegister_bind_apply]
  exact agree machine target (.register address)

theorem execute_memory_ri {make : Register → Argument → Instruction}
    (occupies : op.opClass = .memory) (shape : op.shape = .ri) (other : op ≠ .ldi)
    (agree : ∀ (machine : Machine) (target : Register) (address : Argument),
      (access op target.index (machine.value address) >>= fun _ => inRange Machine.retire) machine =
        inRange (Machine.execute (make target address)) machine)
    (args : Vector Int32 2) :
    execute op args.toList = inRange (ofExcept
      (Instruction.ofRi (fun target address => make target (.immediate address)) args) >>=
        Machine.execute) := by
  funext machine
  simp only [execute, occupies, memory, operand, shape, other, reduceCtorEq, decide_false,
    Bool.false_eq_true, if_false, bind_assoc, item_toList args (by decide : 0 < 2),
    item_toList args (by decide : 1 < 2), pure_bind]
  refine lookup_apply fun target => ?_
  exact agree machine target (.immediate args[1])

theorem execute_ldi (args : Vector Int32 2) :
    execute .ldi args.toList =
      inRange (ofExcept (Instruction.ofRi .loadImmediate args) >>= Machine.execute) := by
  funext machine
  simp only [execute, Op.opClass, memory, if_true, bind_assoc,
    item_toList args (by decide : 0 < 2), item_toList args (by decide : 1 < 2), pure_bind]
  refine lookup_apply fun target => ?_
  change _ = inRange (Machine.execute (.loadImmediate target args[1])) machine
  simp only [Machine.execute, inRange_bind, writeRegister_index]

theorem execute_input (args : Vector Int32 1) :
    execute .input args.toList =
      inRange (ofExcept (Instruction.ofR .receive args) >>= Machine.execute) := by
  funext machine
  simp only [execute, Op.opClass, io, if_true, bind_assoc, item_toList args (by decide : 0 < 1),
    pure_bind]
  refine lookup_apply fun target => ?_
  change _ = inRange (Machine.execute (.receive target)) machine
  simp only [Machine.execute, inRange_bind, get_bind_apply, writeRegister_index]
  cases input : machine.path.input with
  | nil =>
    simp only [bind, EStateM.bind, inRange, Machine.signal, DataPath.latchRegister, input]
    rfl
  | cons byte rest =>
    simp only [bind, EStateM.bind, inRange, Machine.signal, DataPath.latchRegister, input]
    rfl

theorem execute_output (args : Vector Int32 1) :
    execute .output args.toList =
      inRange (ofExcept (Instruction.ofR .send args) >>= Machine.execute) := by
  funext machine
  simp only [execute, Op.opClass, io, reduceCtorEq, if_false, bind_assoc,
    item_toList args (by decide : 0 < 1), pure_bind]
  refine lookup_apply fun source => ?_
  rw [readRegister_bind_apply]
  rfl

/-- An operation by index comes to the instruction of the decoded word. -/
theorem execute_decoded (decoded : Decoded) :
    execute decoded.op decoded.args.toList =
      inRange (ofExcept decoded.instruction >>= Machine.execute) := by
  obtain ⟨op, args⟩ := decoded
  cases op with
  | nop | hlt => rfl
  | add | sub | shr | xor => exact execute_arithmetic_rrr rfl rfl args
  | addi | subi | shri | xori => exact execute_arithmetic_rri rfl rfl args
  | ld => exact execute_memory_rr rfl rfl (fun _ => access_load (.inl rfl)) args
  | lda => exact execute_memory_ri rfl rfl (by decide) (fun _ => access_load (.inr rfl)) args
  | st => exact execute_memory_rr rfl rfl (fun _ => access_store (.inl rfl)) args
  | sta => exact execute_memory_ri rfl rfl (by decide) (fun _ => access_store (.inr rfl)) args
  | ldi => exact execute_ldi args
  | input => exact execute_input args
  | output => exact execute_output args
  | beq | bne | blt | ble | bgt | bge => exact execute_branch_rri rfl args

/-- With an argument missing, an index is outside the list of the arguments. -/
example (machine : Machine) : execute .ldi [1] machine = .error .outOfRange machine := rfl

/-! ## Steps -/

/-- A word is decoded before its arguments are used, so that there are as many of them as the
operation takes. -/
theorem dispatch_apply (word : Word) :
    (do
      let op ← decode word
      inRange (Machine.checkLimit op)
      execute op word.args) machine = inRange (Machine.dispatch word) machine := by
  simp only [Machine.dispatch, inRange_bind (get : Control Machine), inRange_get, get_bind_apply,
    decode, Word.decode, bind_assoc]
  cases Op.ofCode? word.opcode with
  | none => rfl
  | some op =>
    by_cases complete : word.args.length = op.arity
    · have executes : execute op word.args = _ :=
        execute_decoded ⟨op, ⟨word.args.toArray, complete⟩⟩
      simp only [complete, if_true, dite_true, pure_bind, executes, ← inRange_bind]
      rfl
    · simp only [complete, if_false, dite_false]
      rfl

/-- Where memory holds the program, a step by index finds its word. -/
theorem step_apply (holds : machine.HoldsProgram) :
    step machine = inRange Machine.step machine := by
  simp only [step, Machine.step, inRange_bind (get : Control Machine), inRange_get, get_bind_apply]
  by_cases running : machine.status = .running
  · by_cases inside : machine.ip < machine.programLength
    · have present : machine.ip < machine.path.memory.cells.size :=
        Nat.lt_of_lt_of_le inside holds
      have found : machine.path.memory.word? machine.ip =
          some machine.path.memory.cells[machine.ip] :=
        Array.getElem?_eq_getElem present
      have fetched : (machine.path.memory.cells.toList.take machine.programLength)[machine.ip]? =
          some machine.path.memory.cells[machine.ip] := by
        simp [inside, present]
      simp only [running, ne_eq, not_true_eq_false, if_false, Nat.not_le.2 inside,
        item_of_present fetched, pure_bind, found]
      exact dispatch_apply machine.path.memory.cells[machine.ip]
    · simp only [running, ne_eq, not_true_eq_false, if_false, Nat.not_lt.1 inside, if_true]
  · simp only [running, ne_eq, not_false_eq_true, if_true]
    rfl

end Indexed

namespace Machine

variable {start machine : Machine} {origins : List Machine}

/-! ## States that calls lead to -/

/-- Calls change neither the size of memory nor the length of the program, in whatever way the steps
end. -/
theorem keeps_of_calls (made : Calls start origins machine) :
    Keeps start machine ∧ ∀ origin ∈ origins, Keeps start origin := by
  induction made with
  | none => exact ⟨Keeps.refl start, by simp⟩
  | @step origins machine earlier ih =>
    obtain ⟨keeps, others⟩ := ih
    refine ⟨keeps.trans (keeps_next machine), ?_⟩
    intro origin member
    rcases List.mem_append.1 member with member | member
    · exact others origin member
    · rwa [List.mem_singleton.1 member]
  | @run origins machine calls outcome earlier goesOn ends ih =>
    obtain ⟨keeps, others⟩ := ih
    constructor
    · have stays := keeps.trans (keeps_after machine (calls + 1))
      rcases machine_of_run goesOn ends with same | same
      · rwa [same]
      · rw [same]
        exact ⟨stays.config, stays.programLength, stays.size⟩
    · intro origin member
      rcases List.mem_append.1 member with member | member
      · exact others origin member
      · obtain ⟨call, -, rfl⟩ := List.mem_map.1 member
        exact keeps.trans (keeps_after machine call)

/-- The machine with something else in memory. -/
def withMemory (machine : Machine) (memory : Memory) : Machine :=
  { machine with path := { machine.path with memory } }

/-- A machine stays within the bounds of its memory, of its program and of its registers. -/
structure WithinBounds (executable : Executable) (config : Config) (machine : Machine) : Prop where
  size : machine.path.memory.size =
    max executable.program.length (executable.program.length * config.memoryScale)
  programLength : machine.programLength = executable.program.length
  /-- Inside the program there is a word. -/
  finds : machine.ip < machine.programLength →
    ∃ word, machine.path.memory.word? machine.ip = some word
  /-- Inside the program a step decodes the word that the instruction pointer addresses. -/
  decodes {word : Word} : machine.status = .running → machine.ip < machine.programLength →
    machine.path.memory.word? machine.ip = some word → step machine = dispatch word machine
  /-- Outside the program nothing is decoded: the machine ends, whatever is in memory. -/
  ends (memory : Memory) : machine.status = .running → machine.programLength ≤ machine.ip →
    step (machine.withMemory memory) =
      .ok false { machine.withMemory memory with status := .ended }
  /-- A machine that has stopped decodes nothing either. -/
  rests (memory : Memory) : machine.status ≠ .running →
    step (machine.withMemory memory) = .ok false (machine.withMemory memory)
  /-- A step that takes arguments, registers and cells by index comes to the same as the step. -/
  indices : Indexed.step machine = Indexed.inRange step machine
  /-- No index is outside its range. -/
  inRange (left : Machine) : Indexed.step machine ≠ .error .outOfRange left

theorem withinBounds_of_keeps {executable : Executable} {input : List UInt8} {config : Config}
    (keeps : Keeps (load executable input config) machine) :
    WithinBounds executable config machine := by
  have holds := (holdsProgram_load executable input config).of_keeps keeps
  have indices := Indexed.step_apply holds
  constructor
  · rw [keeps.size]
    simp [load, Memory.load, Memory.size]
    omega
  · exact keeps.programLength
  · intro inside
    exact ⟨_, Array.getElem?_eq_getElem (Nat.lt_of_lt_of_le inside holds)⟩
  · intro word running inside found
    rw [step_of_running machine running, fetch?, if_pos inside, found]
  · intro memory running outside
    have outside : (machine.withMemory memory).fetch? = none := if_neg (Nat.not_lt.2 outside)
    rw [step_of_running (machine.withMemory memory) running, outside]
  · intro memory stopped
    exact step_of_stopped (machine.withMemory memory) stopped
  · exact indices
  · intro left
    rw [indices]
    exact Indexed.inRange_ne_outOfRange step left

/-- Every index that a machine uses is in its range. In the states that calls of `step` and `run`
lead to from a loaded program, whatever its words are and wherever it starts, memory and program
keep their sizes, the instruction pointer finds a word inside the program, nothing outside it is
decoded, and the arguments, the registers and the cells that a step takes by index are there. -/
theorem indices_stay_in_range (executable : Executable) (input : List UInt8) (config : Config)
    (origins : List Machine) (machine : Machine)
    (made : Calls (load executable input config) origins machine) :
    WithinBounds executable config machine ∧
      ∀ origin ∈ origins, WithinBounds executable config origin := by
  obtain ⟨keeps, others⟩ := keeps_of_calls made
  exact ⟨withinBounds_of_keeps keeps,
    fun origin member => withinBounds_of_keeps (others origin member)⟩

/-- A store behind the program and a branch out of it, in a program that starts behind a word with
an argument missing. -/
theorem indices_stay_in_range_outside :
    let program : Executable := ⟨1, [.command 1 [0], .command 13 [0, 5], .command 16 [0, 0, 9]]⟩
    ∃ origins machine, Calls (load program [] ⟨2, none⟩) origins machine ∧ origins.length = 3 ∧
      machine.ip = 9 ∧ machine.path.memory.size = 6 ∧ WithinBounds program ⟨2, none⟩ machine := by
  intro program
  have goesOn : (load program [] ⟨2, none⟩).next.GoesOn 1 := by
    rw [← run_eq_none_iff, ← Option.isNone_iff_eq_none]
    decide +kernel
  have leaves : ((load program [] ⟨2, none⟩).next.after 1).Leaves :=
    (ended_next_iff.1 (by decide +kernel)).resolve_left (by decide +kernel)
  have stops := (next_of_leaves leaves).1
  have ends := run_ok_iff.2 ⟨1, Nat.one_lt_two, goesOn, stops, rfl, rfl⟩
  have made := (Calls.none.step).run goesOn ends
  exact ⟨_, _, made, rfl, by decide +kernel, by decide +kernel,
    (indices_stay_in_range program [] ⟨2, none⟩ _ _ made).1⟩

end Machine

end TickMachine
