import TickMachine.Proofs.Arch.Catalog
import TickMachine.Proofs.Machine.Execution
import TickMachine.Proofs.Machine.History
import TickMachine.Proofs.Machine.InstructionTable
import TickMachine.Proofs.Machine.Memory

/-! # Steps follow the instruction table

The control unit works through its latches, one signal at a time. Seen without the latches, every
step is the one that the instruction table names. -/

namespace TickMachine.InstructionTable

/-! ## Parts of the state agree -/

/-- The visible side of the result of a control sequence. -/
def seen : EStateM.Result Fault Machine Bool → Result
  | .ok goesOn machine => (.ok goesOn, machine.visible)
  | .error fault machine => (.error fault, machine.visible)

theorem counter_next_next (count : Nat) :
    Counter.next (Counter.next count) = min (count + 2) Counter.limit := by
  simp only [Counter.next]
  omega

section

variable (machine : Machine)

theorem register_code (name : Register) :
    register machine.visible name.code = machine.register name := by
  rw [register, Register.code_toInt]
  simp [Machine.visible, Machine.register, DataPath.register, RegisterFile.get, name.index.isLt]

theorem cell?_visible (address : Int32) :
    cell? machine.visible address = machine.path.memory.cell? address := by
  unfold cell? Memory.cell?
  split
  · exact Array.getElem?_toList
  · rfl

theorem seen_completeShort (path : DataPath) :
    seen (.ok true (machine.completeShort path)) =
      goOn { machine with path : Machine }.visible (machine.ip + 1) 1 := rfl

theorem seen_completeLong (path : DataPath) :
    seen (.ok true (machine.completeLong path)) =
      goOn { machine with path : Machine }.visible (machine.ip + 1) 2 := by
  simp only [seen, Machine.completeLong, goOn, Machine.visible, counter_next_next]
  rfl

theorem seen_abandon (fault : Fault) (path : DataPath)
    (kept : { machine with path : Machine }.visible = machine.visible) :
    seen (.error fault (machine.abandon path)) = failLate machine.visible fault := by
  rw [← kept]
  rfl

theorem visible_assign (path : DataPath) (target : Register) (value : Int32) :
    { machine with path := Machine.assign path target value : Machine }.visible =
      { { machine with path : Machine }.visible with
        registers := path.registers.values.toList.set target.code.toInt.toNat value } := by
  rw [Register.code_toInt]
  simp [Machine.visible, Machine.assign, RegisterFile.set, Vector.toList_set]

theorem seen_assignShort (path : DataPath) (target : Register) (value : Int32) :
    seen (.ok true (machine.completeShort (Machine.assign path target value))) =
      assign { machine with path : Machine }.visible target.code value 1 := by
  rw [seen_completeShort, visible_assign]
  rfl

theorem seen_assignLong (path : DataPath) (target : Register) (value : Int32) :
    seen (.ok true (machine.completeLong (Machine.assign path target value))) =
      assign { machine with path : Machine }.visible target.code value 2 := by
  rw [seen_completeLong, visible_assign]
  rfl

theorem visible_compute (op : Op) (left right : Int32) :
    { machine with path := Machine.compute machine.path op left right : Machine }.visible =
      machine.visible := by
  unfold Machine.compute
  split <;> rfl

/-! ## Instructions agree with their rows -/

theorem seen_arithmetic {op : Op} {right : Argument} {value : Int32} (target left : Register)
    (result : op.result? (machine.register left) (machine.value right) = some value) :
    seen (Machine.execute (.arithmetic op target left right) machine) =
      assign machine.visible target.code value 2 := by
  simp only [Machine.execute_arithmetic, seen_assignLong, visible_compute]
  simp only [Machine.compute, result]

theorem seen_loadImmediate (target : Register) (value : Int32) :
    seen (Machine.execute (.loadImmediate target value) machine) =
      assign machine.visible target.code value 1 :=
  seen_assignShort machine machine.path target value

theorem seen_load (target : Register) (address : Argument) :
    seen (Machine.execute (.load target address) machine) =
      load machine.visible target.code (machine.value address) := by
  rw [Machine.execute_load, Memory.read_eq, load, cell?_visible]
  rcases machine.path.memory.cell? (machine.value address) with _ | ⟨value | ⟨opcode, args⟩⟩
  · exact seen_abandon machine _ _ rfl
  · exact seen_assignLong machine _ target value
  · exact seen_assignLong machine _ target opcode

theorem seen_store (source : Register) (address : Argument) :
    seen (Machine.execute (.store source address) machine) =
      store machine.visible (machine.value address) (machine.register source) := by
  rw [Machine.execute_store, Memory.write_eq, store, cell?_visible]
  rcases machine.path.memory.cell? (machine.value address) with _ | word
  · exact seen_abandon machine _ _ rfl
  · simp only [seen_completeLong]
    simp [goOn, Machine.visible, Memory.stored]

theorem seen_receive (target : Register) :
    seen (Machine.execute (.receive target) machine) = receive machine.visible target.code := by
  rw [Machine.execute_receive]
  simp only [receive, show machine.visible.input = machine.path.input from rfl]
  cases machine.path.input with
  | nil => rfl
  | cons byte input =>
    exact seen_assignShort machine { machine.path with input } target (Int32.ofNat byte.toNat)

theorem seen_send (source : Register) :
    seen (Machine.execute (.send source) machine) =
      send machine.visible (lowByte (machine.register source)) := by
  rw [Machine.execute_send, seen_completeShort, lowByte_eq]
  simp [send, goOn, Machine.visible]

theorem seen_branch (op : Op) (holds : Int → Int → Bool) (left right : Register) (target : Int32)
    (none : ∀ left right, op.result? left right = none)
    (same : ∀ left right, op.holds left right = holds left.toInt right.toInt) :
    seen (Machine.execute (.branch op left right target) machine) =
      branch machine.visible holds left.code right.code target := by
  have truth : (Machine.compute machine.path op (machine.register left)
      (machine.register right)).truth =
        holds (machine.register left).toInt (machine.register right).toInt := by
    simp only [Machine.compute, none, same]
  simp only [Machine.execute_branch, truth, branch, register_code]
  split
  · split
    · rw [← visible_compute machine op (machine.register left) (machine.register right)]
      rfl
    · exact seen_abandon machine _ _ (visible_compute machine ..)
  · rw [seen_completeShort, visible_compute]
    rfl

/-! ## Operands are checked in their order -/

/-- What comes of a word whose operands have been looked at. -/
def carried (found : Except Fault Instruction) : Result :=
  match found with
  | .error fault => (.error fault, machine.visible)
  | .ok instruction => seen (Machine.execute instruction machine)

/-- The row of an operation behind the check of its operands. -/
def checked (kinds : List OperandKind) (args : List Int32) (row : Result) : Result :=
  match invalid? kinds args with
  | some code => (.error (.invalidRegister code), machine.visible)
  | none => row

variable {machine}

theorem invalid?_register (code : Int32) (kinds : List OperandKind) (args : List Int32) :
    invalid? (.register :: kinds) (code :: args) =
      if 0 ≤ code.toInt ∧ code.toInt < 8 then invalid? kinds args else some code := by
  by_cases inside : 0 ≤ code.toInt ∧ code.toInt < 8
  · simp [invalid?, inside]
  · rw [if_neg inside, invalid?, List.zip_cons_cons, List.find?_cons_of_pos (by simp [inside])]
    rfl

theorem invalid?_immediate (value : Int32) (kinds : List OperandKind) (args : List Int32) :
    invalid? (.immediate :: kinds) (value :: args) = invalid? kinds args := by
  simp [invalid?]

theorem carried_register {code : Int32} {rest : Register → Except Fault Instruction}
    {kinds : List OperandKind} {args : List Int32} {row : Result}
    (follows : ∀ name : Register, name.code = code →
      carried machine (rest name) = checked machine kinds args row) :
    carried machine (Instruction.register code >>= rest) =
      checked machine (.register :: kinds) (code :: args) row := by
  rcases named : Register.ofCode? code with _ | name
  · have outside := Register.ofCode?_eq_none_iff.1 named
    simp only [checked, invalid?_register, outside, if_false, Instruction.register, named]
    rfl
  · have same := Register.ofCode?_eq_some_iff.1 named
    have inside : 0 ≤ code.toInt ∧ code.toInt < 8 := by
      rw [← same, Register.code_toInt]
      omega
    simp only [checked, invalid?_register, inside, and_self, if_true, Instruction.register, named]
    exact follows name same

variable (op : Op)

theorem carried_rrr {make : Register → Register → Register → Instruction}
    (kinds : op.kinds = [.register, .register, .register])
    (follows : ∀ d l r : Register,
      seen (Machine.execute (make d l r) machine) =
        operate machine.visible op [d.code, l.code, r.code])
    (args : Vector Int32 3) :
    carried machine (Instruction.ofRrr make args) =
      checked machine op.kinds args.toList (operate machine.visible op args.toList) := by
  obtain ⟨⟨list⟩, length⟩ := args
  match list, length with
  | [first, second, third], _ =>
    rw [kinds]
    apply carried_register
    intro d named
    subst named
    apply carried_register
    intro l named
    subst named
    apply carried_register
    intro r named
    subst named
    exact follows d l r

theorem carried_rri {make : Register → Register → Int32 → Instruction}
    (kinds : op.kinds = [.register, .register, .immediate])
    (follows : ∀ (d l : Register) (i : Int32),
      seen (Machine.execute (make d l i) machine) =
        operate machine.visible op [d.code, l.code, i])
    (args : Vector Int32 3) :
    carried machine (Instruction.ofRri make args) =
      checked machine op.kinds args.toList (operate machine.visible op args.toList) := by
  obtain ⟨⟨list⟩, length⟩ := args
  match list, length with
  | [first, second, third], _ =>
    rw [kinds]
    apply carried_register
    intro d named
    subst named
    apply carried_register
    intro l named
    subst named
    rw [checked, invalid?_immediate]
    exact follows d l third

theorem carried_rr {make : Register → Register → Instruction}
    (kinds : op.kinds = [.register, .register])
    (follows : ∀ d a : Register,
      seen (Machine.execute (make d a) machine) = operate machine.visible op [d.code, a.code])
    (args : Vector Int32 2) :
    carried machine (Instruction.ofRr make args) =
      checked machine op.kinds args.toList (operate machine.visible op args.toList) := by
  obtain ⟨⟨list⟩, length⟩ := args
  match list, length with
  | [first, second], _ =>
    rw [kinds]
    apply carried_register
    intro d named
    subst named
    apply carried_register
    intro a named
    subst named
    exact follows d a

theorem carried_ri {make : Register → Int32 → Instruction}
    (kinds : op.kinds = [.register, .immediate])
    (follows : ∀ (d : Register) (i : Int32),
      seen (Machine.execute (make d i) machine) = operate machine.visible op [d.code, i])
    (args : Vector Int32 2) :
    carried machine (Instruction.ofRi make args) =
      checked machine op.kinds args.toList (operate machine.visible op args.toList) := by
  obtain ⟨⟨list⟩, length⟩ := args
  match list, length with
  | [first, second], _ =>
    rw [kinds]
    apply carried_register
    intro d named
    subst named
    rw [checked, invalid?_immediate]
    exact follows d second

theorem carried_r {make : Register → Instruction} (kinds : op.kinds = [.register])
    (follows : ∀ d : Register,
      seen (Machine.execute (make d) machine) = operate machine.visible op [d.code])
    (args : Vector Int32 1) :
    carried machine (Instruction.ofR make args) =
      checked machine op.kinds args.toList (operate machine.visible op args.toList) := by
  obtain ⟨⟨list⟩, length⟩ := args
  match list, length with
  | [first], _ =>
    rw [kinds]
    apply carried_register
    intro d named
    subst named
    exact follows d

/-! ## The table is followed -/

theorem carried_arithmetic {value : Int32 → Int32 → Int32}
    (kinds : op.kinds = [.register, .register, .register])
    (result : ∀ left right, op.result? left right = some (value left right))
    (row : ∀ d l r : Int32, operate machine.visible op [d, l, r] =
      assign machine.visible d
        (value (register machine.visible l) (register machine.visible r)) 2)
    (args : Vector Int32 3) :
    carried machine (Instruction.ofRrr (fun d l r => .arithmetic op d l (.register r)) args) =
      checked machine op.kinds args.toList (operate machine.visible op args.toList) := by
  refine carried_rrr op kinds ?_ args
  intro d l r
  rw [row, register_code, register_code]
  exact seen_arithmetic machine d l (result _ _)

theorem carried_arithmeticImmediate {value : Int32 → Int32 → Int32}
    (kinds : op.kinds = [.register, .register, .immediate])
    (result : ∀ left right, op.result? left right = some (value left right))
    (row : ∀ d l i : Int32, operate machine.visible op [d, l, i] =
      assign machine.visible d (value (register machine.visible l) i) 2)
    (args : Vector Int32 3) :
    carried machine (Instruction.ofRri (fun d l i => .arithmetic op d l (.immediate i)) args) =
      checked machine op.kinds args.toList (operate machine.visible op args.toList) := by
  refine carried_rri op kinds ?_ args
  intro d l i
  rw [row, register_code]
  exact seen_arithmetic machine d l (result _ _)

theorem carried_branch (holds : Int → Int → Bool)
    (kinds : op.kinds = [.register, .register, .immediate])
    (none : ∀ left right, op.result? left right = none)
    (same : ∀ left right, op.holds left right = holds left.toInt right.toInt)
    (row : ∀ l r i : Int32, operate machine.visible op [l, r, i] =
      branch machine.visible holds l r i)
    (args : Vector Int32 3) :
    carried machine (Instruction.ofRri (.branch op) args) =
      checked machine op.kinds args.toList (operate machine.visible op args.toList) := by
  refine carried_rri op kinds ?_ args
  intro l r i
  rw [row]
  exact seen_branch machine op holds l r i none same

variable (machine)

/-- The registers that the arguments of a decoded word name are looked up in their order, and the
instruction found is carried out as its row says. -/
theorem carried_instruction (decoded : Decoded) :
    carried machine decoded.instruction =
      checked machine decoded.op.kinds decoded.args.toList
        (operate machine.visible decoded.op decoded.args.toList) := by
  obtain ⟨op, args⟩ := decoded
  cases op with
  | nop | hlt =>
    obtain ⟨⟨list⟩, length⟩ := args
    match list, length with
    | [], _ => rfl
  | add =>
    exact carried_arithmetic .add rfl (fun x y => congrArg some (sum_eq x y).symm)
      (fun _ _ _ => rfl) args
  | sub =>
    exact carried_arithmetic .sub rfl (fun x y => congrArg some (difference_eq x y).symm)
      (fun _ _ _ => rfl) args
  | shr =>
    exact carried_arithmetic .shr rfl (fun x y => congrArg some (shifted_eq x y).symm)
      (fun _ _ _ => rfl) args
  | xor =>
    exact carried_arithmetic .xor rfl (fun x y => congrArg some (exclusive_eq x y).symm)
      (fun _ _ _ => rfl) args
  | addi =>
    exact carried_arithmeticImmediate .addi rfl (fun x y => congrArg some (sum_eq x y).symm)
      (fun _ _ _ => rfl) args
  | subi =>
    exact carried_arithmeticImmediate .subi rfl (fun x y => congrArg some (difference_eq x y).symm)
      (fun _ _ _ => rfl) args
  | shri =>
    exact carried_arithmeticImmediate .shri rfl (fun x y => congrArg some (shifted_eq x y).symm)
      (fun _ _ _ => rfl) args
  | xori =>
    exact carried_arithmeticImmediate .xori rfl (fun x y => congrArg some (exclusive_eq x y).symm)
      (fun _ _ _ => rfl) args
  | ldi => exact carried_ri .ldi rfl (seen_loadImmediate machine) args
  | lda => exact carried_ri .lda rfl (fun d i => seen_load machine d (.immediate i)) args
  | ld =>
    refine carried_rr .ld rfl ?_ args
    intro d a
    show _ = load machine.visible d.code (register machine.visible a.code)
    rw [register_code]
    exact seen_load machine d (.register a)
  | st =>
    refine carried_rr .st rfl ?_ args
    intro s a
    show _ = store machine.visible (register machine.visible a.code)
      (register machine.visible s.code)
    rw [register_code, register_code]
    exact seen_store machine s (.register a)
  | sta =>
    have row (s : Register) (i : Int32) :
        seen (Machine.execute (.store s (.immediate i)) machine) =
          operate machine.visible .sta [s.code, i] := by
      show _ = store machine.visible i (register machine.visible s.code)
      rw [register_code]
      exact seen_store machine s (.immediate i)
    exact carried_ri .sta rfl row args
  | input => exact carried_r .input rfl (seen_receive machine) args
  | output =>
    refine carried_r .output rfl ?_ args
    intro s
    show _ = send machine.visible (lowByte (register machine.visible s.code))
    rw [register_code]
    exact seen_send machine s
  | beq =>
    exact carried_branch .beq (fun x y => x = y) rfl (fun _ _ => rfl) beq_holds
      (fun _ _ _ => rfl) args
  | bne =>
    exact carried_branch .bne (fun x y => x ≠ y) rfl (fun _ _ => rfl) bne_holds
      (fun _ _ _ => rfl) args
  | blt =>
    exact carried_branch .blt (fun x y => x < y) rfl (fun _ _ => rfl) blt_holds
      (fun _ _ _ => rfl) args
  | ble =>
    exact carried_branch .ble (fun x y => x ≤ y) rfl (fun _ _ => rfl) ble_holds
      (fun _ _ _ => rfl) args
  | bgt =>
    exact carried_branch .bgt (fun x y => x > y) rfl (fun _ _ => rfl) bgt_holds
      (fun _ _ _ => rfl) args
  | bge =>
    exact carried_branch .bge (fun x y => x ≥ y) rfl (fun _ _ => rfl) bge_holds
      (fun _ _ _ => rfl) args

theorem operation?_eq (code : Int32) : operation? code = Op.ofCode? code := by
  have places : ∀ place : Fin 23, ((Op.all[place]).code.toInt = place.val) := by decide
  apply Option.ext
  intro op
  rw [Op.ofCode?_eq_some_iff]
  constructor
  · intro found
    unfold operation? at found
    split at found
    · next nonnegative =>
      obtain ⟨place, rfl⟩ := List.getElem?_eq_some_iff.1 found
      apply Int32.toInt_inj.1
      have counted := places ⟨code.toInt.toNat, place⟩
      simp only [Fin.getElem_fin] at counted
      omega
    · cases found
  · rintro rfl
    rw [operation?, if_pos (Op.all_code op).1, (Op.all_code op).2]

theorem refusal?_eq :
    machine.refusal? op = (exceeded? machine.visible op).map Fault.stepLimitExceeded := by
  unfold Machine.refusal? exceeded?
  simp only [Machine.visible]
  cases machine.config.stepLimit with
  | none => simp
  | some limit =>
    by_cases halting : op = .hlt
    · simp [halting]
    · by_cases reached : limit ≤ machine.instructions <;> simp [halting, reached, Option.filter]

theorem seen_dispatch (word : Word) :
    seen (Machine.dispatch word machine) = perform machine.visible word := by
  rw [Machine.dispatch_eq, perform, operation?_eq, Word.decode]
  rcases Op.ofCode? word.opcode with _ | op
  · rfl
  · simp only
    by_cases count : word.args.length = op.arity
    · rw [dif_pos count, if_neg (not_not_intro count)]
      simp only [refusal?_eq]
      rcases exceeded? machine.visible op with _ | limit
      · refine Eq.trans ?_ (carried_instruction machine ⟨op, ⟨word.args.toArray, count⟩⟩)
        simp only [carried, Option.map_none]
        cases Decoded.instruction ⟨op, ⟨word.args.toArray, count⟩⟩ <;> rfl
      · rfl
    · rw [dif_neg count, if_pos count]
      rfl

theorem fetch?_visible :
    (machine.visible.memory.take machine.visible.programLength)[machine.visible.ip]? =
      machine.fetch? := by
  rw [List.getElem?_take]
  simp [Machine.visible, Machine.fetch?, Memory.word?]

theorem seen_step : seen (Machine.step machine) = (machine.answer, machine.next.visible) := by
  unfold Machine.answer Machine.next
  cases Machine.step machine <;> rfl

end

/-- Every step follows the table: what it answers and the visible state that it leaves depend on the
visible state alone, and are those of the table. -/
theorem step_follows_table (machine : Machine) :
    (machine.answer, machine.next.visible) = step machine.visible := by
  have status : machine.visible.status = machine.status := rfl
  rw [← seen_step, step, status, fetch?_visible]
  by_cases running : machine.status = .running
  · rw [Machine.step_of_running machine running, if_neg (not_not_intro running)]
    cases machine.fetch? with
    | none => rfl
    | some word => exact seen_dispatch machine word
  · rw [Machine.step_of_stopped machine running, if_pos running]
    rfl

end TickMachine.InstructionTable
