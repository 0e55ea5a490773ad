import TickMachine.Proofs.Machine.StepCases
import TickMachine.Program.Disassembly

/-! # Malformed commands

A command is looked at in two places: the disassembler goes through the kinds of its operands one by
one, and the control unit has a way of its own to read each shape of operands. Both find the same
fault or none, and a command without a fault can fail only for what it does. -/

namespace TickMachine

/-- The fault by which a machine refuses a command that has no text. -/
def DisassemblyError.fault (address : Nat) : DisassemblyError → Fault
  | .unknownOpcode opcode => .unknownOpcode opcode address
  | .unknownRegister code => .invalidRegister code
  | .argumentCount op expected got => .argumentCount op address expected got

theorem DisassemblyError.fault_inj {address : Nat} {first second : DisassemblyError}
    (same : first.fault address = second.fault address) : first = second := by
  cases first <;> cases second <;> cases same <;> rfl

/-- A text and what the machine finds in its place fail for the same reason, or neither fails. -/
def FailAlike {α β : Type} (address : Nat) (text : Except DisassemblyError α)
    (found : Except Fault β) : Prop :=
  errorOf? found = (errorOf? text).map (DisassemblyError.fault address)

section

variable (address : Nat)

/-! ## Operands -/

/-- A register that does not exist is blamed in front of all operands behind it. -/
theorem failAlike_register {code : Int32} {kinds : List OperandKind} {args : List Int32}
    {rest : Register → Except Fault Instruction}
    (behind : ∀ name, FailAlike address (Disassembly.operands kinds args) (rest name)) :
    FailAlike address (Disassembly.operands (.register :: kinds) (code :: args))
      (Instruction.register code >>= rest) := by
  unfold FailAlike at behind ⊢
  simp only [Disassembly.operands, Disassembly.operand, Disassembly.register, Instruction.register]
  cases Register.ofCode? code with
  | none => rfl
  | some name =>
    refine (behind name).trans ?_
    cases Disassembly.operands kinds args <;> rfl

/-- An immediate is never blamed. -/
theorem failAlike_immediate {value : Int32} {kinds : List OperandKind} {args : List Int32}
    {found : Except Fault Instruction}
    (behind : FailAlike address (Disassembly.operands kinds args) found) :
    FailAlike address (Disassembly.operands (.immediate :: kinds) (value :: args)) found := by
  refine Eq.trans behind ?_
  simp only [Disassembly.operands, Disassembly.operand]
  cases Disassembly.operands kinds args <;> rfl

theorem failAlike_nil (instruction : Instruction) :
    FailAlike address (Disassembly.operands [] []) (.ok instruction) := rfl

theorem failAlike_rrr (make : Register → Register → Register → Instruction)
    (args : Vector Int32 3) :
    FailAlike address (Disassembly.operands Shape.rrr.kinds args.toList)
      (Instruction.ofRrr make args) := by
  obtain ⟨⟨list⟩, length⟩ := args
  match list, length with
  | [first, second, third], _ =>
    apply failAlike_register
    intro d
    apply failAlike_register
    intro l
    apply failAlike_register
    intro r
    exact failAlike_nil address (make d l r)

theorem failAlike_rri (make : Register → Register → Int32 → Instruction) (args : Vector Int32 3) :
    FailAlike address (Disassembly.operands Shape.rri.kinds args.toList)
      (Instruction.ofRri make args) := by
  obtain ⟨⟨list⟩, length⟩ := args
  match list, length with
  | [first, second, third], _ =>
    apply failAlike_register
    intro d
    apply failAlike_register
    intro l
    apply failAlike_immediate
    exact failAlike_nil address (make d l third)

theorem failAlike_rr (make : Register → Register → Instruction) (args : Vector Int32 2) :
    FailAlike address (Disassembly.operands Shape.rr.kinds args.toList)
      (Instruction.ofRr make args) := by
  obtain ⟨⟨list⟩, length⟩ := args
  match list, length with
  | [first, second], _ =>
    apply failAlike_register
    intro d
    apply failAlike_register
    intro a
    exact failAlike_nil address (make d a)

theorem failAlike_ri (make : Register → Int32 → Instruction) (args : Vector Int32 2) :
    FailAlike address (Disassembly.operands Shape.ri.kinds args.toList)
      (Instruction.ofRi make args) := by
  obtain ⟨⟨list⟩, length⟩ := args
  match list, length with
  | [first, second], _ =>
    apply failAlike_register
    intro d
    apply failAlike_immediate
    exact failAlike_nil address (make d second)

theorem failAlike_r (make : Register → Instruction) (args : Vector Int32 1) :
    FailAlike address (Disassembly.operands Shape.r.kinds args.toList)
      (Instruction.ofR make args) := by
  obtain ⟨⟨list⟩, length⟩ := args
  match list, length with
  | [first], _ =>
    apply failAlike_register
    intro d
    exact failAlike_nil address (make d)

/-! ## Commands -/

/-- The way in which each operation reads its operands fits their kinds. -/
theorem failAlike_instruction (decoded : Decoded) :
    FailAlike address (Disassembly.operands decoded.op.kinds decoded.args.toList)
      decoded.instruction := by
  obtain ⟨op, args⟩ := decoded
  unfold Decoded.instruction
  cases op with
  | nop | hlt =>
    obtain ⟨⟨list⟩, length⟩ := args
    match list, length with
    | [], _ => exact failAlike_nil address _
  | add | sub | shr | xor => exact failAlike_rrr address _ args
  | addi | subi | shri | xori | beq | bne | blt | ble | bgt | bge =>
    exact failAlike_rri address _ args
  | ld | st => exact failAlike_rr address _ args
  | ldi | lda | sta => exact failAlike_ri address _ args
  | input | output => exact failAlike_r address _ args

theorem decode_command {opcode : Int32} {op : Op} (found : Op.ofCode? opcode = some op)
    (args : List Int32) :
    (Word.command opcode args).decode address =
      if count : args.length = op.arity then .ok ⟨op, ⟨args.toArray, count⟩⟩
      else .error (.argumentCount op address op.arity args.length) := by
  have same : Op.ofCode? (Word.command opcode args).opcode = some op := found
  rw [Word.decode, same]
  rfl

/-- A command has no text exactly when it is not decoded or has no instruction. -/
theorem failAlike_command (opcode : Int32) (args : List Int32) :
    FailAlike address (Disassembly.command opcode args)
      ((Word.command opcode args).decode address >>= Decoded.instruction) := by
  cases found : Op.ofCode? opcode with
  | none =>
    have unknown : Op.ofCode? (Word.command opcode args).opcode = none := found
    rw [Disassembly.command, Word.decode, found, unknown]
    rfl
  | some op =>
    rw [decode_command address found, Disassembly.command, found]
    by_cases count : args.length = op.arity
    · rw [dif_pos count]
      simp only [count, ne_eq, not_true_eq_false, if_false]
      refine Eq.trans (failAlike_instruction address ⟨op, ⟨args.toArray, count⟩⟩) ?_
      show Option.map _ (errorOf? (Disassembly.operands op.kinds args)) = _
      cases Disassembly.operands op.kinds args with
      | error refusal => rfl
      | ok texts => cases texts <;> rfl
    · rw [dif_neg count]
      simp only [count, ne_eq, not_false_eq_true, if_true]
      rfl

end

/-! ## Steps -/

namespace Machine

section

variable {machine : Machine} {word : Word} {fault : Fault} (running : machine.status = .running)
  (fetched : machine.fetch? = some word) (allowed : ∀ op, machine.refusal? op = none)
include running fetched allowed

/-- Within the step limit, a word that is not decoded or has no instruction is refused for that
reason. -/
theorem answer_of_refused
    (refused : word.decode machine.ip >>= Decoded.instruction = .error fault) :
    machine.answer = .error fault := by
  have done := step_of_running machine running
  rw [fetched] at done
  simp only [dispatch_eq, allowed] at done
  rcases bind_error refused with undecoded | ⟨decoded, decode, misnamed⟩
  · simp only [undecoded] at done
    exact (answer_of_error done).1
  · simp only [decode, misnamed] at done
    exact (answer_of_error done).1

/-- An instruction can fail only for what it does. -/
theorem fault_of_instructed {instruction : Instruction}
    (instructed : word.decode machine.ip >>= Decoded.instruction = .ok instruction)
    (failed : machine.answer = .error fault) :
    (∃ address, fault = .memoryOutOfBounds address) ∨ fault = .inputExhausted ∨
      ∃ target, fault = .invalidBranchTarget target := by
  obtain ⟨decoded, decode, found⟩ := bind_ok instructed
  have done := step_of_running machine running
  rw [fetched] at done
  simp only [dispatch_eq, allowed, decode, found] at done
  rw [step_of_error failed] at done
  exact fault_of_execute done.symm

end

section

variable {machine : Machine} {opcode : Int32} {args : List Int32}
  (running : machine.status = .running)
  (fetched : machine.fetch? = some (.command opcode args))
  (allowed : ∀ op, machine.refusal? op = none)
include running fetched allowed

/-- A command without a text is refused by the fault that belongs to its error, and by no other. -/
theorem answer_eq_fault_iff (refusal : DisassemblyError) :
    Disassembly.command opcode args = .error refusal ↔
      machine.answer = .error (refusal.fault machine.ip) := by
  have alike := failAlike_command machine.ip opcode args
  unfold FailAlike at alike
  constructor
  · intro noText
    rw [noText] at alike
    exact answer_of_refused running fetched allowed (errorOf?_eq_some_iff.1 alike)
  · intro failed
    cases text : Disassembly.command opcode args with
    | error found =>
      rw [text] at alike
      have answered := answer_of_refused running fetched allowed (errorOf?_eq_some_iff.1 alike)
      rw [failed] at answered
      rw [DisassemblyError.fault_inj (Except.error.inj answered)]
    | ok text' =>
      rw [text] at alike
      obtain ⟨instruction, instructed⟩ := errorOf?_eq_none_iff.1 alike
      have late := fault_of_instructed running fetched allowed instructed failed
      cases refusal <;> simp [DisassemblyError.fault] at late

/-- A command with a text is not refused. -/
theorem fault_of_text {text : String} (written : Disassembly.command opcode args = .ok text)
    {fault : Fault} (failed : machine.answer = .error fault) :
    (∃ address, fault = .memoryOutOfBounds address) ∨ fault = .inputExhausted ∨
      ∃ target, fault = .invalidBranchTarget target := by
  have alike := failAlike_command machine.ip opcode args
  unfold FailAlike at alike
  rw [written] at alike
  obtain ⟨instruction, instructed⟩ := errorOf?_eq_none_iff.1 alike
  exact fault_of_instructed running fetched allowed instructed failed

end

/-- The disassembler and the machine agree on the malformed commands. A running machine within its
step limit finds a command at its instruction pointer, inside the program. The step fails for an
unknown operation, for the number of arguments or for a register that does not exist exactly when
this is why the command has no text, and it blames the same number. A command with a text does not
fail in any of these ways. -/
theorem malformed_commands_agree {machine : Machine} {opcode : Int32} {args : List Int32}
    (running : machine.status = .running) (inside : machine.ip < machine.programLength)
    (found : machine.path.memory.word? machine.ip = some (.command opcode args))
    (allowed : ∀ limit, machine.config.stepLimit = some limit → machine.instructions < limit) :
    (∀ code, (Word.command opcode args).disassemble = .error (.unknownOpcode code) ↔
      machine.answer = .error (.unknownOpcode code machine.ip)) ∧
    (∀ op expected got,
      (Word.command opcode args).disassemble = .error (.argumentCount op expected got) ↔
        machine.answer = .error (.argumentCount op machine.ip expected got)) ∧
    (∀ code, (Word.command opcode args).disassemble = .error (.unknownRegister code) ↔
      machine.answer = .error (.invalidRegister code)) ∧
    ∀ text, (Word.command opcode args).disassemble = .ok text →
      (∀ code address, machine.answer ≠ .error (.unknownOpcode code address)) ∧
      (∀ op address expected got,
        machine.answer ≠ .error (.argumentCount op address expected got)) ∧
      ∀ code, machine.answer ≠ .error (.invalidRegister code) := by
  have fetched : machine.fetch? = some (.command opcode args) := by
    rw [fetch?, if_pos inside, found]
  have unrefused : ∀ op, machine.refusal? op = none := by
    intro op
    unfold refusal?
    cases limited : machine.config.stepLimit with
    | none => rfl
    | some limit => simp [allowed limit limited]
  have agree := answer_eq_fault_iff running fetched unrefused
  refine ⟨fun code => agree (.unknownOpcode code),
    fun op expected got => agree (.argumentCount op expected got),
    fun code => agree (.unknownRegister code), ?_⟩
  intro text written
  have late := @fault_of_text machine opcode args running fetched unrefused text written
  refine ⟨?_, ?_, ?_⟩
  · intro code address failed
    simpa using late failed
  · intro op address expected got failed
    simpa using late failed
  · intro code failed
    simpa using late failed

/-- Of two operands that name no register, the first one is blamed, at the last instruction that the
limit allows. -/
theorem malformed_commands_agree_register :
    let machine := load ⟨0, [.command 1 [0, 9, 12]]⟩ [] { stepLimit := some 1 }
    machine.status = .running ∧ machine.ip < machine.programLength ∧
      machine.path.memory.word? machine.ip = some (.command 1 [0, 9, 12]) ∧
      (∀ limit, machine.config.stepLimit = some limit → machine.instructions < limit) ∧
      (Word.command 1 [0, 9, 12]).disassemble = .error (.unknownRegister 9) ∧
      machine.answer = .error (.invalidRegister 9) := by
  intro machine
  have inside : machine.ip < machine.programLength := by
    decide
  have allowed : ∀ limit, machine.config.stepLimit = some limit → machine.instructions < limit := by
    rintro limit ⟨⟩
    decide
  have blamed : (Word.command 1 [0, 9, 12]).disassemble = .error (.unknownRegister 9) := by
    rfl
  have running : machine.status = .running := rfl
  have agree := malformed_commands_agree running inside rfl allowed
  exact ⟨running, inside, rfl, allowed, blamed, (agree.2.2.1 9).1 blamed⟩

end Machine

end TickMachine
