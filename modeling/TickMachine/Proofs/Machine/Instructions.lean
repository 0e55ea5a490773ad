import TickMachine.Proofs.Machine.Execution
import TickMachine.Proofs.Machine.Memory
import TickMachine.Proofs.Results

/-! # What an instruction comes to

An instruction other than HLT is completed and counted, or it fails. A failure leaves behind what
the instruction did before it failed, latches of the data path and at most one tick, and nothing of
that decides on what the instruction would come to next. -/

namespace TickMachine

/-! ## The instruction of a decoded word -/

namespace Instruction

theorem ofRrr_ok {make : Register → Register → Register → Instruction} {args : Vector Int32 3}
    {instruction : Instruction} (h : ofRrr make args = .ok instruction) :
    ∃ first second third, instruction = make first second third := by
  obtain ⟨first, -, h⟩ := bind_ok h
  obtain ⟨second, -, h⟩ := bind_ok h
  obtain ⟨third, -, h⟩ := bind_ok h
  cases h
  exact ⟨first, second, third, rfl⟩

theorem ofRri_ok {make : Register → Register → Int32 → Instruction} {args : Vector Int32 3}
    {instruction : Instruction} (h : ofRri make args = .ok instruction) :
    ∃ first second value, instruction = make first second value := by
  obtain ⟨first, -, h⟩ := bind_ok h
  obtain ⟨second, -, h⟩ := bind_ok h
  cases h
  exact ⟨first, second, _, rfl⟩

theorem ofRr_ok {make : Register → Register → Instruction} {args : Vector Int32 2}
    {instruction : Instruction} (h : ofRr make args = .ok instruction) :
    ∃ first second, instruction = make first second := by
  obtain ⟨first, -, h⟩ := bind_ok h
  obtain ⟨second, -, h⟩ := bind_ok h
  cases h
  exact ⟨first, second, rfl⟩

theorem ofRi_ok {make : Register → Int32 → Instruction} {args : Vector Int32 2}
    {instruction : Instruction} (h : ofRi make args = .ok instruction) :
    ∃ first value, instruction = make first value := by
  obtain ⟨first, -, h⟩ := bind_ok h
  cases h
  exact ⟨first, _, rfl⟩

theorem ofR_ok {make : Register → Instruction} {args : Vector Int32 1}
    {instruction : Instruction} (h : ofR make args = .ok instruction) :
    ∃ first, instruction = make first := by
  obtain ⟨first, -, h⟩ := bind_ok h
  cases h
  exact ⟨first, rfl⟩

/-- A look-up in front of others fails because of its own code, or one of the others fails. -/
theorem invalidRegister_of_bind {code : Int32} {rest : Register → Except Fault Instruction}
    {fault : Fault} (h : register code >>= rest = .error fault)
    (others : ∀ name, rest name = .error fault → ∃ code, fault = .invalidRegister code) :
    ∃ code, fault = .invalidRegister code := by
  rcases bind_error h with failed | ⟨name, -, failed⟩
  · unfold register at failed
    split at failed
    · cases failed
    · cases failed
      exact ⟨code, rfl⟩
  · exact others name failed

end Instruction

/-- The instructions that carry out an operation. -/
inductive Instruction.CarriesOut : Op → Instruction → Prop
  | nop : CarriesOut .nop .nop
  | halt : CarriesOut .hlt .halt
  | arithmetic {op : Op} (arithmetic : op.opClass = .arithmetic) (target left : Register)
    (right : Argument) : CarriesOut op (.arithmetic op target left right)
  | loadImmediate (target : Register) (value : Int32) : CarriesOut .ldi (.loadImmediate target value)
  | load {op : Op} (load : op = .ld ∨ op = .lda) (target : Register) (address : Argument) :
    CarriesOut op (.load target address)
  | store {op : Op} (store : op = .st ∨ op = .sta) (source : Register) (address : Argument) :
    CarriesOut op (.store source address)
  | receive (target : Register) : CarriesOut .input (.receive target)
  | send (source : Register) : CarriesOut .output (.send source)
  | branch {op : Op} (branch : op.opClass = .branch) (left right : Register) (target : Int32) :
    CarriesOut op (.branch op left right target)

namespace Decoded

theorem carriesOut_instruction {decoded : Decoded} {instruction : Instruction}
    (found : decoded.instruction = .ok instruction) :
    Instruction.CarriesOut decoded.op instruction := by
  obtain ⟨op, args⟩ := decoded
  unfold Decoded.instruction at found
  cases op with
  | nop =>
    cases found
    exact .nop
  | hlt =>
    cases found
    exact .halt
  | add | sub | shr | xor =>
    obtain ⟨target, left, right, rfl⟩ := Instruction.ofRrr_ok found
    exact .arithmetic rfl target left _
  | addi | subi | shri | xori =>
    obtain ⟨target, left, right, rfl⟩ := Instruction.ofRri_ok found
    exact .arithmetic rfl target left _
  | ldi =>
    obtain ⟨target, value, rfl⟩ := Instruction.ofRi_ok found
    exact .loadImmediate target value
  | ld =>
    obtain ⟨target, address, rfl⟩ := Instruction.ofRr_ok found
    exact .load (.inl rfl) target _
  | lda =>
    obtain ⟨target, address, rfl⟩ := Instruction.ofRi_ok found
    exact .load (.inr rfl) target _
  | st =>
    obtain ⟨source, address, rfl⟩ := Instruction.ofRr_ok found
    exact .store (.inl rfl) source _
  | sta =>
    obtain ⟨source, address, rfl⟩ := Instruction.ofRi_ok found
    exact .store (.inr rfl) source _
  | input =>
    obtain ⟨target, rfl⟩ := Instruction.ofR_ok found
    exact .receive target
  | output =>
    obtain ⟨source, rfl⟩ := Instruction.ofR_ok found
    exact .send source
  | beq | bne | blt | ble | bgt | bge =>
    obtain ⟨left, right, target, rfl⟩ := Instruction.ofRri_ok found
    exact .branch rfl left right target

/-- A decoded word has no instruction only when an operand names no register. -/
theorem invalidRegister_of_instruction {decoded : Decoded} {fault : Fault}
    (failed : decoded.instruction = .error fault) : ∃ code, fault = .invalidRegister code := by
  obtain ⟨op, args⟩ := decoded
  unfold Decoded.instruction at failed
  cases op with
  | nop | hlt => cases failed
  | add | sub | shr | xor =>
    refine Instruction.invalidRegister_of_bind failed fun _ failed => ?_
    refine Instruction.invalidRegister_of_bind failed fun _ failed => ?_
    refine Instruction.invalidRegister_of_bind failed fun _ failed => ?_
    cases failed
  | addi | subi | shri | xori | ld | st | beq | bne | blt | ble | bgt | bge =>
    refine Instruction.invalidRegister_of_bind failed fun _ failed => ?_
    refine Instruction.invalidRegister_of_bind failed fun _ failed => ?_
    cases failed
  | ldi | lda | sta | input | output =>
    refine Instruction.invalidRegister_of_bind failed fun _ failed => ?_
    cases failed

theorem instruction_of_hlt {decoded : Decoded} (hlt : decoded.op = .hlt) :
    decoded.instruction = .ok .halt := by
  obtain ⟨op, args⟩ := decoded
  cases hlt
  rfl

end Decoded

namespace Machine

variable {machine other last : Machine} {fault : Fault}

/-! ## Completed instructions -/

/-- The bytes that an instruction puts at the end of the output. -/
def sentBy (machine : Machine) : Instruction → List UInt8
  | .send source => [DataPath.lowByte (machine.register source)]
  | _ => []

/-- What every completed instruction does: it is counted, it puts bytes at the end of the output, and
memory keeps its size. -/
structure Completes (bytes : List UInt8) (before after : Machine) : Prop where
  status : after.status = before.status
  config : after.config = before.config
  programLength : after.programLength = before.programLength
  instructions : after.instructions = Counter.next before.instructions
  size : after.path.memory.size = before.path.memory.size
  output : after.path.output.toList = before.path.output.toList ++ bytes

theorem completes_short {path : DataPath} {bytes : List UInt8}
    (size : path.memory.size = machine.path.memory.size)
    (output : path.output.toList = machine.path.output.toList ++ bytes) :
    Completes bytes machine (machine.completeShort path) :=
  ⟨rfl, rfl, rfl, rfl, size, output⟩

theorem completes_long {path : DataPath} {bytes : List UInt8}
    (size : path.memory.size = machine.path.memory.size)
    (output : path.output.toList = machine.path.output.toList ++ bytes) :
    Completes bytes machine (machine.completeLong path) :=
  ⟨rfl, rfl, rfl, rfl, size, output⟩

theorem memory_compute (path : DataPath) (op : Op) (left right : Int32) :
    (compute path op left right).memory = path.memory := by
  unfold compute
  split <;> rfl

theorem output_compute (path : DataPath) (op : Op) (left right : Int32) :
    (compute path op left right).output = path.output := by
  unfold compute
  split <;> rfl

theorem size_write {memory written : Memory} {address value : Int32}
    (done : memory.write address value = .ok written) : written.size = memory.size := by
  unfold Memory.write at done
  split at done
  · cases done
    simp [Memory.put, Memory.size]
  · cases done

/-- An instruction other than HLT goes on when it does not fail. -/
theorem completes_of_execute {instruction : Instruction} (other : instruction ≠ .halt)
    {goesOn : Bool} (done : execute instruction machine = .ok goesOn last) :
    goesOn = true ∧ Completes (machine.sentBy instruction) machine last := by
  have silent : machine.path.output.toList = machine.path.output.toList ++ [] :=
    (List.append_nil _).symm
  cases instruction with
  | halt => exact absurd rfl other
  | nop =>
    cases done
    exact ⟨rfl, completes_short rfl silent⟩
  | loadImmediate target value =>
    cases done
    exact ⟨rfl, completes_short rfl silent⟩
  | arithmetic op target left right =>
    cases done
    refine ⟨rfl, completes_long ?_ (Eq.trans ?_ silent)⟩
    · exact congrArg Memory.size (memory_compute machine.path op _ _)
    · exact congrArg Array.toList (output_compute machine.path op _ _)
  | load target address =>
    rw [execute_load] at done
    simp only at done
    split at done
    · cases done
      exact ⟨rfl, completes_long rfl silent⟩
    · cases done
  | store source address =>
    rw [execute_store] at done
    simp only at done
    split at done
    · next written =>
      cases done
      exact ⟨rfl, completes_long (size_write written) silent⟩
    · cases done
  | receive target =>
    rw [execute_receive] at done
    split at done
    · cases done
    · cases done
      exact ⟨rfl, completes_short rfl silent⟩
  | send source =>
    cases done
    exact ⟨rfl, completes_short rfl Array.toList_push⟩
  | branch op left right target =>
    have output : (compute machine.path op (machine.register left)
        (machine.register right)).output.toList = machine.path.output.toList ++ [] := by
      rw [output_compute]
      exact silent
    have size : (compute machine.path op (machine.register left)
        (machine.register right)).memory.size = machine.path.memory.size := by
      rw [memory_compute]
    rw [execute_branch] at done
    simp only at done
    split at done
    · split at done
      · cases done
        exact ⟨rfl, rfl, rfl, rfl, rfl, size, output⟩
      · cases done
    · cases done
      exact ⟨rfl, completes_short size output⟩

/-! ## Failed instructions -/

/-- The second machine differs from the first one in nothing but the latches of the data path and
the ticks. -/
structure Intact (before after : Machine) : Prop where
  registers : after.path.registers = before.path.registers
  memory : after.path.memory = before.path.memory
  input : after.path.input = before.path.input
  output : after.path.output = before.path.output
  ip : after.ip = before.ip
  instructions : after.instructions = before.instructions
  programLength : after.programLength = before.programLength
  config : after.config = before.config
  status : after.status = before.status

/-- The second machine is what a failed step may leave of the first one. -/
structure FailedStep (before after : Machine) : Prop where
  intact : Intact before after
  ticks : after.ticks = before.ticks ∨ after.ticks = Counter.next before.ticks

theorem Intact.refl (machine : Machine) : Intact machine machine :=
  ⟨rfl, rfl, rfl, rfl, rfl, rfl, rfl, rfl, rfl⟩

theorem Intact.trans {first second third : Machine} (h : Intact first second)
    (h' : Intact second third) : Intact first third where
  registers := h'.registers.trans h.registers
  memory := h'.memory.trans h.memory
  input := h'.input.trans h.input
  output := h'.output.trans h.output
  ip := h'.ip.trans h.ip
  instructions := h'.instructions.trans h.instructions
  programLength := h'.programLength.trans h.programLength
  config := h'.config.trans h.config
  status := h'.status.trans h.status

theorem FailedStep.refl (machine : Machine) : FailedStep machine machine :=
  ⟨Intact.refl machine, .inl rfl⟩

/-! ## What the latches have no part in -/

namespace Intact

variable (intact : Intact machine other)
include intact

theorem register_eq (name : Register) : other.register name = machine.register name := by
  unfold register DataPath.register
  rw [intact.registers]

theorem value_eq (argument : Argument) : other.value argument = machine.value argument := by
  cases argument with
  | register name => exact intact.register_eq name
  | immediate value => rfl

theorem fetch?_eq : other.fetch? = machine.fetch? := by
  unfold fetch?
  rw [intact.ip, intact.programLength, intact.memory]

theorem refusal?_eq (op : Op) : other.refusal? op = machine.refusal? op := by
  unfold refusal?
  rw [intact.config, intact.instructions]

end Intact

theorem failedStep_latchAddress (machine : Machine) (address : Int32) :
    FailedStep machine (machine.abandon { machine.path with dataAddress := address }) :=
  ⟨⟨rfl, rfl, rfl, rfl, rfl, rfl, rfl, rfl, rfl⟩, .inr rfl⟩

theorem failedStep_compute (machine : Machine) (op : Op) (left right : Int32) :
    FailedStep machine (machine.abandon (compute machine.path op left right)) := by
  unfold compute
  split <;> exact ⟨⟨rfl, rfl, rfl, rfl, rfl, rfl, rfl, rfl, rfl⟩, .inr rfl⟩

/-- A comparison does not depend on the truth flag that an earlier one has left. -/
theorem truth_compute {op : Op} (branch : op.opClass = .branch) (path : DataPath)
    (left right : Int32) : (compute path op left right).truth = op.holds left right := by
  have none : op.result? left right = none := by
    cases op with
    | beq | bne | blt | ble | bgt | bge => rfl
    | _ => cases branch
  unfold compute
  rw [none]

/-- An instruction fails on an address, on the input or on the target of a branch. -/
theorem fault_of_execute {instruction : Instruction}
    (failed : execute instruction machine = .error fault last) :
    (∃ address, fault = .memoryOutOfBounds address) ∨ fault = .inputExhausted ∨
      ∃ target, fault = .invalidBranchTarget target := by
  cases instruction with
  | nop | halt | loadImmediate | send | arithmetic => cases failed
  | load target address =>
    rw [execute_load, Memory.read_eq] at failed
    cases cell : machine.path.memory.cell? (machine.value address) with
    | none =>
      simp only [cell] at failed
      cases failed
      exact .inl ⟨_, rfl⟩
    | some word =>
      simp only [cell] at failed
      cases failed
  | store source address =>
    rw [execute_store, Memory.write_eq] at failed
    cases cell : machine.path.memory.cell? (machine.value address) with
    | none =>
      simp only [cell] at failed
      cases failed
      exact .inl ⟨_, rfl⟩
    | some word =>
      simp only [cell] at failed
      cases failed
  | receive target =>
    rw [execute_receive] at failed
    split at failed
    · cases failed
      exact .inr (.inl rfl)
    · cases failed
  | branch op left right target =>
    rw [execute_branch] at failed
    simp only at failed
    split at failed
    · split at failed
      · cases failed
      · cases failed
        exact .inr (.inr ⟨target, rfl⟩)
    · cases failed

/-- An instruction that fails on one machine fails in the same way on a machine that differs in the
latches and the ticks only. -/
theorem execute_fails {op : Op} {instruction : Instruction}
    (carries : Instruction.CarriesOut op instruction) (intact : Intact machine other)
    (failed : execute instruction machine = .error fault last) :
    ∃ left, execute instruction other = .error fault left ∧ FailedStep other left := by
  cases carries with
  | nop => cases failed
  | halt => cases failed
  | arithmetic => cases failed
  | loadImmediate => cases failed
  | send => cases failed
  | load loads target address =>
    have same : other.path.memory.read (other.value address) =
        machine.path.memory.read (machine.value address) := by
      rw [intact.memory, intact.value_eq]
    rw [execute_load] at failed ⊢
    simp only [same] at failed ⊢
    cases read : machine.path.memory.read (machine.value address) with
    | ok value =>
      rw [read] at failed
      cases failed
    | error found =>
      rw [read] at failed
      cases failed
      exact ⟨_, rfl, failedStep_latchAddress other _⟩
  | store stores source address =>
    have same : other.path.memory.write (other.value address) (other.register source) =
        machine.path.memory.write (machine.value address) (machine.register source) := by
      rw [intact.memory, intact.value_eq, intact.register_eq]
    rw [execute_store] at failed ⊢
    simp only [same] at failed ⊢
    cases written : machine.path.memory.write (machine.value address) (machine.register source) with
    | ok memory =>
      rw [written] at failed
      cases failed
    | error found =>
      rw [written] at failed
      cases failed
      exact ⟨_, rfl, failedStep_latchAddress other _⟩
  | receive target =>
    rw [execute_receive] at failed ⊢
    rw [intact.input]
    cases input : machine.path.input with
    | cons byte bytes =>
      rw [input] at failed
      cases failed
    | nil =>
      rw [input] at failed
      cases failed
      exact ⟨other, rfl, FailedStep.refl other⟩
  | branch branch left right target =>
    rw [execute_branch] at failed ⊢
    simp only [truth_compute branch, intact.register_eq] at failed ⊢
    by_cases holds : op.holds (machine.register left) (machine.register right) = true
    · by_cases nonnegative : 0 ≤ target.toInt
      · rw [if_pos holds, if_pos nonnegative] at failed
        cases failed
      · rw [if_pos holds, if_neg nonnegative] at failed ⊢
        cases failed
        exact ⟨_, rfl, failedStep_compute other op _ _⟩
    · rw [if_neg holds] at failed
      cases failed

end Machine

end TickMachine
