import TickMachine.Proofs.Machine.Instructions
import TickMachine.Proofs.Program.CommandTexts

/-! # Commands that are written and commands that are executed

The disassembler and the control unit decode a command each in its own way: one walks over the kinds
of the operands, the other looks up the registers of each shape. They look at the operands in the
same order and refuse the same code, so a command that has a text can be executed. -/

namespace TickMachine

open Disassembly

/-- The operands of a command make an instruction and have texts, or the same code is refused as a
register. -/
inductive Agree : Except Fault Instruction → Except DisassemblyError (List String) → Prop
  | found (instruction : Instruction) (texts : List String) : Agree (.ok instruction) (.ok texts)
  | refused (code : Int32) :
    Agree (.error (.invalidRegister code)) (.error (.unknownRegister code))

/-! ## Operands -/

section

variable {kinds : List OperandKind} {values : List Int32}

theorem agree_register (code : Int32) {rest : Register → Except Fault Instruction}
    (others : ∀ register, Agree (rest register) (operands kinds values)) :
    Agree (Instruction.register code >>= rest)
      (operands (.register :: kinds) (code :: values)) := by
  simp only [operands, operand, Instruction.register, register]
  cases Register.ofCode? code with
  | none => exact .refused code
  | some name =>
    have agree := others name
    simp only [bind, Except.bind]
    generalize operands kinds values = texts at agree
    generalize rest name = attempt at agree
    cases agree with
    | found instruction texts => exact .found _ _
    | refused code => exact .refused code

theorem agree_immediate (value : Int32) {attempt : Except Fault Instruction}
    (others : Agree attempt (operands kinds values)) :
    Agree attempt (operands (.immediate :: kinds) (value :: values)) := by
  simp only [operands, operand, bind, Except.bind]
  generalize operands kinds values = texts at others
  cases others with
  | found instruction texts => exact .found _ _
  | refused code => exact .refused code

end

/-! ## Shapes -/

theorem agree_rrr (make : Register → Register → Register → Instruction) (args : Vector Int32 3) :
    Agree (Instruction.ofRrr make args) (operands Shape.rrr.kinds args.toList) := by
  obtain ⟨⟨list⟩, length⟩ := args
  match list, length with
  | [first, second, third], _ =>
    apply agree_register
    intro d
    apply agree_register
    intro l
    apply agree_register
    intro r
    exact .found _ _

theorem agree_rri (make : Register → Register → Int32 → Instruction) (args : Vector Int32 3) :
    Agree (Instruction.ofRri make args) (operands Shape.rri.kinds args.toList) := by
  obtain ⟨⟨list⟩, length⟩ := args
  match list, length with
  | [first, second, third], _ =>
    apply agree_register
    intro d
    apply agree_register
    intro l
    apply agree_immediate
    exact .found _ _

theorem agree_rr (make : Register → Register → Instruction) (args : Vector Int32 2) :
    Agree (Instruction.ofRr make args) (operands Shape.rr.kinds args.toList) := by
  obtain ⟨⟨list⟩, length⟩ := args
  match list, length with
  | [first, second], _ =>
    apply agree_register
    intro d
    apply agree_register
    intro a
    exact .found _ _

theorem agree_ri (make : Register → Int32 → Instruction) (args : Vector Int32 2) :
    Agree (Instruction.ofRi make args) (operands Shape.ri.kinds args.toList) := by
  obtain ⟨⟨list⟩, length⟩ := args
  match list, length with
  | [first, second], _ =>
    apply agree_register
    intro d
    apply agree_immediate
    exact .found _ _

theorem agree_r (make : Register → Instruction) (args : Vector Int32 1) :
    Agree (Instruction.ofR make args) (operands Shape.r.kinds args.toList) := by
  obtain ⟨⟨list⟩, length⟩ := args
  match list, length with
  | [first], _ =>
    apply agree_register
    intro d
    exact .found _ _

/-! ## Commands -/

/-- The instruction of a decoded word and the texts of its operands are found together. -/
theorem Decoded.agree (decoded : Decoded) :
    Agree decoded.instruction (operands decoded.op.kinds decoded.args.toList) := by
  obtain ⟨op, args⟩ := decoded
  cases op with
  | nop | hlt => exact .found _ []
  | add | sub | shr | xor => exact agree_rrr _ args
  | addi | subi | shri | xori =>
    exact agree_rri (fun d l v => .arithmetic _ d l (.immediate v)) args
  | beq | bne | blt | ble | bgt | bge => exact agree_rri _ args
  | ld | st => exact agree_rr _ args
  | ldi => exact agree_ri _ args
  | lda => exact agree_ri (fun d a => .load d (.immediate a)) args
  | sta => exact agree_ri (fun s a => .store s (.immediate a)) args
  | input | output => exact agree_r _ args

/-- A command that has a text is decoded, and its operands make an instruction. -/
theorem executed_of_written {opcode : Int32} {args : List Int32} {text : String}
    (written : Word.disassemble (.command opcode args) = .ok text) (address : Nat) :
    ∃ decoded instruction, (Word.command opcode args).decode address = .ok decoded ∧
      decoded.instruction = .ok instruction := by
  obtain ⟨op, texts, rfl, count, found, -⟩ := command_ok written
  let decoded : Decoded := ⟨op, ⟨args.toArray, count⟩⟩
  have decode : (Word.command op.code args).decode address = .ok decoded := by
    rw [Word.decode]
    simp only [Word.opcode, Op.ofCode?_code]
    exact dif_pos count
  have agree : Agree decoded.instruction (operands op.kinds args) := decoded.agree
  rw [found] at agree
  generalize made : decoded.instruction = attempt at agree
  cases agree with
  | found instruction texts => exact ⟨decoded, instruction, decode, made⟩

end TickMachine
