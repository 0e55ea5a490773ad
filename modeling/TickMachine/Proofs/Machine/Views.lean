import TickMachine.Proofs.Machine.Memory
import TickMachine.Proofs.Machine.Queues
import TickMachine.Proofs.Machine.RunsBySteps
import TickMachine.Proofs.Machine.StoredData

/-! # Views of a machine

What a program can tell of the machine that executes it: the instruction pointer, the registers, the
queues and the counters. As long as a program stores nothing, each instruction comes to a move of
the view, and what the program does is found by following the moves, without the machine itself. -/

namespace TickMachine

/-- What a program can tell of its machine. The counters do not stop at a limit. -/
structure View where
  ip : Nat
  registers : Register → Int32 := fun _ => 0
  input : List UInt8 := []
  output : List UInt8 := []
  instructions : Nat := 0
  ticks : Nat := 0

namespace View

/-- The value of an instruction's last operand. -/
def value (view : View) : Argument → Int32
  | .register name => view.registers name
  | .immediate value => value

/-- The view with another value in a register. -/
def assign (view : View) (target : Register) (value : Int32) : View :=
  { view with registers := fun name => if name = target then value else view.registers name }

@[simp] theorem registers_assign (view : View) (target : Register) (value : Int32)
    (name : Register) : (view.assign target value).registers name =
      if name = target then value else view.registers name := rfl

/-- The view after an instruction of a number of ticks, which goes on at an address. -/
def complete (view : View) (ip ticks : Nat) : View :=
  { view with ip, instructions := view.instructions + 1, ticks := view.ticks + ticks }

end View

/-- The program has an instruction other than HLT at an address. -/
def Carries (program : List Word) (address : Nat) (instruction : Instruction) : Prop :=
  ∃ word decoded, program[address]? = some word ∧ word.decode address = .ok decoded ∧
    decoded.op ≠ .hlt ∧ decoded.instruction = .ok instruction

/-- The move of a view by the instruction at its address. -/
inductive View.Moves (program : List Word) (view : View) : View → Prop
  | arithmetic {op : Op} {target left : Register} {right : Argument} {result : Int32}
      (carries : Carries program view.ip (.arithmetic op target left right))
      (results : op.result? (view.registers left) (view.value right) = some result) :
    Moves program view ((view.assign target result).complete (view.ip + 1) 2)
  | loadImmediate {target : Register} {value : Int32}
      (carries : Carries program view.ip (.loadImmediate target value)) :
    Moves program view ((view.assign target value).complete (view.ip + 1) 1)
  | load {target : Register} {address : Argument} {index : Nat} {word : Word}
      (carries : Carries program view.ip (.load target address))
      (addresses : (view.value address).toInt = index) (found : program[index]? = some word) :
    Moves program view ((view.assign target word.value).complete (view.ip + 1) 2)
  | receive {target : Register} {byte : UInt8} {rest : List UInt8}
      (carries : Carries program view.ip (.receive target)) (input : view.input = byte :: rest) :
    Moves program view
      (({ view with input := rest }.assign target (Int32.ofNat byte.toNat)).complete
        (view.ip + 1) 1)
  | send {source : Register} {byte : UInt8} (carries : Carries program view.ip (.send source))
      (sends : DataPath.lowByte (view.registers source) = byte) :
    Moves program view ({ view with output := view.output ++ [byte] }.complete (view.ip + 1) 1)
  | jump {op : Op} {left right : Register} {target : Int32} {index : Nat}
      (carries : Carries program view.ip (.branch op left right target))
      (branch : op.opClass = .branch)
      (holds : op.holds (view.registers left) (view.registers right) = true)
      (addresses : target.toInt = index) : Moves program view (view.complete index 1)
  | pass {op : Op} {left right : Register} {target : Int32}
      (carries : Carries program view.ip (.branch op left right target))
      (branch : op.opClass = .branch)
      (fails : op.holds (view.registers left) (view.registers right) = false) :
    Moves program view (view.complete (view.ip + 1) 1)

/-- A number of moves one after the other. -/
inductive View.Leads (program : List Word) : Nat → View → View → Prop
  | stay {view : View} : Leads program 0 view view
  | move {view next last : View} {moves : Nat} (first : view.Moves program next)
      (others : Leads program moves next last) : Leads program (moves + 1) view last

theorem View.Leads.trans {program : List Word} {first second third : View} {moves others : Nat}
    (leads : Leads program moves first second) (leads' : Leads program others second third) :
    Leads program (moves + others) first third := by
  induction leads with
  | stay => rwa [Nat.zero_add]
  | move move _ ih =>
    rw [Nat.add_right_comm]
    exact .move move (ih leads')

variable {program : List Word} {view next : View}

/-! ## Data paths -/

/-- A data path with the registers and the queues of a view, and the program in its memory. -/
structure DataPath.Shows (program : List Word) (view : View) (path : DataPath) : Prop where
  memory : ∀ address word, program[address]? = some word → path.memory.word? address = some word
  registers : ∀ name, path.register name = view.registers name
  input : path.input = view.input
  output : path.output.toList = view.output

namespace Machine

theorem register_assign_other (path : DataPath) {target name : Register} (value : Int32)
    (other : name ≠ target) : (assign path target value).register name = path.register name := by
  have apart : target.index.val ≠ name.index.val := by
    revert other
    cases name <;> cases target <;> decide
  simp only [assign, DataPath.register, RegisterFile.get, RegisterFile.set, Fin.getElem_fin]
  exact Vector.getElem_set_ne _ _ apart

section

variable {path : DataPath} (shows : path.Shows program view)
include shows

theorem shows_assign (target : Register) (value : Int32) :
    (assign path target value).Shows program (view.assign target value) where
  memory := shows.memory
  registers := by
    intro name
    rw [View.registers_assign]
    by_cases same : name = target
    · rw [same, register_assign, if_pos rfl]
    · rw [register_assign_other path value same, if_neg same]
      exact shows.registers name
  input := shows.input
  output := shows.output

/-- The arithmetic unit changes its latches only. -/
theorem shows_compute (op : Op) (left right : Int32) :
    (compute path op left right).Shows program view := by
  unfold compute
  split <;> exact ⟨shows.memory, shows.registers, shows.input, shows.output⟩

theorem shows_dataAddress (dataAddress : Int32) :
    { path with dataAddress }.Shows program view :=
  ⟨shows.memory, shows.registers, shows.input, shows.output⟩

theorem read_of_shows {address : Int32} {index : Nat} {word : Word}
    (addresses : address.toInt = index) (found : program[index]? = some word) :
    path.memory.read address = .ok word.value := by
  have inside : 0 ≤ address.toInt := by
    rw [addresses]
    exact Int.natCast_nonneg index
  have held := shows.memory index word found
  rw [Memory.read_eq, Memory.cell?, if_pos inside, addresses, Int.toNat_natCast, held]

end

theorem aluResult_compute {op : Op} {left right result : Int32}
    (results : op.result? left right = some result) (path : DataPath) :
    (compute path op left right).aluResult = result := by
  rw [compute, results]

/-! ## Machines -/

/-- A running machine without a step limit that has a view, and the program in its memory. -/
structure Shows (program : List Word) (view : View) (machine : Machine) : Prop where
  status : machine.status = .running
  unlimited : machine.config.stepLimit = none
  programLength : machine.programLength = program.length
  ip : machine.ip = view.ip
  path : machine.path.Shows program view
  instructions : machine.instructions = min view.instructions Counter.limit
  ticks : machine.ticks = min view.ticks Counter.limit

/-- The view of a machine in front of its program. -/
theorem shows_load (executable : Executable) (input : List UInt8) (memoryScale : Nat) :
    (load executable input { memoryScale }).Shows executable.program
      { ip := executable.start, input } := by
  refine ⟨rfl, rfl, rfl, rfl, ⟨?_, ?_, rfl, rfl⟩, rfl, rfl⟩
  · intro address word found
    obtain ⟨inside, -⟩ := List.getElem?_eq_some_iff.1 found
    have front : address < executable.program.toArray.size := inside
    rw [load, Memory.load, Memory.word?, Array.getElem?_append_left front, List.getElem?_toArray,
      found]
  · intro name
    cases name <;> rfl

theorem next_min (count : Nat) :
    Counter.next (min count Counter.limit) = min (count + 1) Counter.limit := by
  rw [Counter.next]
  omega

section

variable {machine : Machine} (shows : machine.Shows program view)
include shows

theorem value_of_shows (argument : Argument) : machine.value argument = view.value argument := by
  cases argument with
  | register name => exact shows.path.registers name
  | immediate value => rfl

theorem fetch?_of_shows {word : Word} (found : program[view.ip]? = some word) :
    machine.fetch? = some word := by
  obtain ⟨inside, -⟩ := List.getElem?_eq_some_iff.1 found
  rw [fetch?, shows.ip, shows.programLength, if_pos inside]
  exact shows.path.memory view.ip word found

theorem step_of_carries {instruction : Instruction}
    (carries : Carries program view.ip instruction) :
    step machine = execute instruction machine := by
  obtain ⟨word, decoded, found, decode, other, instructed⟩ := carries
  have allowed : machine.refusal? decoded.op = none := by
    rw [refusal?, shows.unlimited]
  rw [← shows.ip] at decode
  exact step_of_performs
    ⟨decoded, ⟨shows.status, word, fetch?_of_shows shows found, decode⟩, other, allowed, instructed⟩

/-- A completed instruction of one tick, wherever it goes on. -/
theorem shows_short {path : DataPath} {changed : View} (left : path.Shows program changed)
    (instructions : changed.instructions = view.instructions)
    (ticks : changed.ticks = view.ticks) (ip : Nat) :
    ({ machine.completeShort path with ip }).Shows program (changed.complete ip 1) where
  status := shows.status
  unlimited := shows.unlimited
  programLength := shows.programLength
  ip := rfl
  path := ⟨left.memory, left.registers, left.input, left.output⟩
  instructions := by
    simp only [completeShort, View.complete, shows.instructions, next_min, instructions]
  ticks := by
    simp only [completeShort, View.complete, shows.ticks, next_min, ticks]

/-- A completed instruction of two ticks. -/
theorem shows_long {path : DataPath} {changed : View} (left : path.Shows program changed)
    (instructions : changed.instructions = view.instructions)
    (ticks : changed.ticks = view.ticks) :
    (machine.completeLong path).Shows program (changed.complete (view.ip + 1) 2) where
  status := shows.status
  unlimited := shows.unlimited
  programLength := shows.programLength
  ip := congrArg (· + 1) shows.ip
  path := ⟨left.memory, left.registers, left.input, left.output⟩
  instructions := by
    simp only [completeLong, View.complete, shows.instructions, next_min, instructions]
  ticks := by
    simp only [completeLong, View.complete, shows.ticks, next_min, ticks]

theorem shows_next_short {path : DataPath} {changed : View} (left : path.Shows program changed)
    (instructions : changed.instructions = view.instructions)
    (ticks : changed.ticks = view.ticks)
    (done : step machine = .ok true (machine.completeShort path)) :
    machine.answer = .ok true ∧ machine.next.Shows program (changed.complete (view.ip + 1) 1) := by
  obtain ⟨answered, next⟩ := answer_of_ok done
  have shown : (machine.completeShort path).Shows program (changed.complete (machine.ip + 1) 1) :=
    shows_short shows left instructions ticks (machine.ip + 1)
  rw [shows.ip] at shown
  rw [next]
  exact ⟨answered, shown⟩

theorem shows_next_long {path : DataPath} {changed : View} (left : path.Shows program changed)
    (instructions : changed.instructions = view.instructions)
    (ticks : changed.ticks = view.ticks)
    (done : step machine = .ok true (machine.completeLong path)) :
    machine.answer = .ok true ∧ machine.next.Shows program (changed.complete (view.ip + 1) 2) := by
  obtain ⟨answered, next⟩ := answer_of_ok done
  rw [next]
  exact ⟨answered, shows_long shows left instructions ticks⟩

/-- A branch compares the registers of the view. -/
theorem step_of_branch {op : Op} {left right : Register} {target : Int32}
    (carries : Carries program view.ip (.branch op left right target))
    (branch : op.opClass = .branch) :
    step machine =
      let path := compute machine.path op (machine.register left) (machine.register right)
      if op.holds (view.registers left) (view.registers right) = true then
        if 0 ≤ target.toInt then
          .ok true { machine.completeShort path with ip := target.toInt.toNat }
        else .error (.invalidBranchTarget target) (machine.abandon path)
      else .ok true (machine.completeShort path) := by
  have first : machine.register left = view.registers left := shows.path.registers left
  have second : machine.register right = view.registers right := shows.path.registers right
  rw [step_of_carries shows carries, execute_branch]
  simp only [truth_compute branch, first, second]

/-- The machine makes the moves of its view. -/
theorem shows_next (moves : view.Moves program next) :
    machine.answer = .ok true ∧ machine.next.Shows program next := by
  cases moves with
  | @arithmetic op target left right result carries results =>
    have first : machine.register left = view.registers left := shows.path.registers left
    have computed : (compute machine.path op (machine.register left)
        (machine.value right)).aluResult = result := by
      rw [first, value_of_shows shows]
      exact aluResult_compute results machine.path
    have done := step_of_carries shows carries
    rw [execute_arithmetic] at done
    simp only [computed] at done
    exact shows_next_long shows (shows_assign (shows_compute shows.path op _ _) target result)
      rfl rfl done
  | loadImmediate carries =>
    exact shows_next_short shows (shows_assign shows.path _ _) rfl rfl
      (step_of_carries shows carries)
  | @load target address index word carries addresses found =>
    have done := step_of_carries shows carries
    rw [execute_load] at done
    simp only [value_of_shows shows, read_of_shows shows.path addresses found] at done
    exact shows_next_long shows (shows_assign (shows_dataAddress shows.path _) target _) rfl rfl
      done
  | @receive target byte rest carries input =>
    have held := shows.path.input.trans input
    have done := step_of_carries shows carries
    rw [execute_receive, held] at done
    have taken : { machine.path with input := rest }.Shows program { view with input := rest } :=
      ⟨shows.path.memory, shows.path.registers, rfl, shows.path.output⟩
    exact shows_next_short shows (shows_assign taken target _) rfl rfl done
  | @send source byte carries sends =>
    have value : machine.register source = view.registers source := shows.path.registers source
    have done := step_of_carries shows carries
    rw [execute_send, value, sends] at done
    have sent : { machine.path with output := machine.path.output.push byte }.Shows program
        { view with output := view.output ++ [byte] } := by
      refine ⟨shows.path.memory, shows.path.registers, shows.path.input, ?_⟩
      rw [Array.toList_push, shows.path.output]
    exact shows_next_short shows sent rfl rfl done
  | @jump op left right target index carries branch holds addresses =>
    have inside : 0 ≤ (index : Int) := Int.natCast_nonneg index
    have done := step_of_branch shows carries branch
    simp only [holds, addresses, inside, if_true, Int.toNat_natCast] at done
    obtain ⟨answered, next⟩ := answer_of_ok done
    rw [next]
    exact ⟨answered, shows_short shows (shows_compute shows.path op _ _) rfl rfl _⟩
  | @pass op left right target carries branch fails =>
    have done := step_of_branch shows carries branch
    simp only [fails, Bool.false_eq_true, if_false] at done
    exact shows_next_short shows (shows_compute shows.path op _ _) rfl rfl done

/-- The machine follows the moves of its view, one step for each of them. -/
theorem shows_after {last : View} {moves : Nat} (leads : view.Leads program moves last) :
    machine.GoesOn moves ∧ (machine.after moves).Shows program last := by
  induction leads generalizing machine with
  | stay => exact ⟨goesOn_zero machine, shows⟩
  | move first others ih =>
    obtain ⟨answered, shown⟩ := shows_next shows first
    obtain ⟨goesOn, last⟩ := ih shown
    exact ⟨goesOn_succ_iff.2 ⟨answered, goesOn⟩, last⟩

theorem halts_of_shows (found : program[view.ip]? = some (.command Op.hlt.code [])) :
    machine.Halts :=
  ⟨⟨.hlt, #v[]⟩, ⟨shows.status, _, fetch?_of_shows shows found, rfl⟩, rfl⟩

/-- A run whose moves lead to HLT reports the last view. -/
theorem run_of_leads {last : View} {moves : Nat} (leads : view.Leads program moves last)
    (found : program[last.ip]? = some (.command Op.hlt.code [])) :
    ∃ rest, ∀ fuel, moves < fuel → machine.run fuel = some (.ok
      { output := last.output
        ticks := min last.ticks Counter.limit
        instructions := min last.instructions Counter.limit
        halted := true } rest) := by
  obtain ⟨goesOn, shown⟩ := shows_after shows leads
  obtain ⟨answered, stopped⟩ := next_of_halts (halts_of_shows shown found)
  refine ⟨(machine.after (moves + 1)).drain, ?_⟩
  intro fuel enough
  refine run_ok_iff.2 ⟨moves, enough, goesOn, answered, ?_, rfl⟩
  rw [after_succ, stopped]
  simp only [report, shown.path.output, shown.ticks, shown.instructions]
  rfl

/-- A run whose moves lead to an instruction that takes a byte fails when there is none, and leaves
the output of the last view behind. -/
theorem run_of_exhausted {last : View} {moves : Nat} {target : Register}
    (leads : view.Leads program moves last) (carries : Carries program last.ip (.receive target))
    (exhausted : last.input = []) :
    ∃ rest, rest.path.output.toList = last.output ∧
      ∀ fuel, moves < fuel → machine.run fuel = some (.error .inputExhausted rest) := by
  obtain ⟨goesOn, shown⟩ := shows_after shows leads
  have failed := step_of_carries shown carries
  rw [execute_receive, shown.path.input, exhausted] at failed
  obtain ⟨answered, stayed⟩ := answer_of_error failed
  refine ⟨machine.after moves, shown.path.output, ?_⟩
  intro fuel enough
  refine run_error_iff.2 ⟨moves, enough, goesOn, answered, ?_⟩
  rw [after_succ, stayed]

end

end Machine

end TickMachine
