import TickMachine.Proofs.Machine.Runs
import TickMachine.Proofs.Machine.StoredData

/-! # The surroundings of a program

A program meets its memory and its input only where an instruction loads, stores or receives. A
change of these surroundings that each instruction of a run meets as it would have met the old ones
commutes with the steps of the run, so that the run in the new surroundings is the changed run. -/

namespace TickMachine

/-- A change of what surrounds a program: of its memory, of its input and of its limits. -/
structure Change where
  memory : Memory → Memory
  input : List UInt8 → List UInt8
  config : Config → Config

namespace Change

/-- The data path in changed surroundings. -/
def path (change : Change) (path : DataPath) : DataPath :=
  { path with memory := change.memory path.memory, input := change.input path.input }

/-- The machine in changed surroundings. -/
def machine (change : Change) (machine : Machine) : Machine :=
  { machine with path := change.path machine.path, config := change.config machine.config }

/-- The result of a control sequence with the machine that it leaves in changed surroundings. -/
def result {α : Type} (change : Change) :
    EStateM.Result Fault Machine α → EStateM.Result Fault Machine α
  | .ok answer machine => .ok answer (change.machine machine)
  | .error fault machine => .error fault (change.machine machine)

/-- The instruction meets the changed surroundings of a machine as it meets the old ones. -/
def Spares (change : Change) (machine : Machine) : Instruction → Prop
  | .load _ address =>
    (change.memory machine.path.memory).read (machine.value address) =
      machine.path.memory.read (machine.value address)
  | .store source address =>
    (change.memory machine.path.memory).write (machine.value address) (machine.register source) =
      (machine.path.memory.write (machine.value address) (machine.register source)).map
        change.memory
  | .receive _ =>
    change.input machine.path.input =
      match machine.path.input with
      | [] => []
      | byte :: input => byte :: change.input input
  | _ => True

/-- The next step meets the changed surroundings of a machine as it meets the old ones. -/
structure SparesStep (change : Change) (machine : Machine) : Prop where
  fetch : (change.machine machine).fetch? = machine.fetch?
  limit : (change.config machine.config).stepLimit = machine.config.stepLimit
  instruction : ∀ instruction, machine.Performs instruction → change.Spares machine instruction

section

open Machine

variable {change : Change} {machine : Machine}

/-! ## What is left as it is -/

theorem spares_load (same : change.memory = id) (target : Register) (address : Argument) :
    change.Spares machine (.load target address) := by
  show (change.memory _).read _ = _
  rw [same, id]

theorem spares_store (same : change.memory = id) (source : Register) (address : Argument) :
    change.Spares machine (.store source address) := by
  show (change.memory _).write _ _ = Except.map change.memory _
  rw [same, Except.map_id, id, id]

theorem spares_receive (same : change.input = id) (target : Register) :
    change.Spares machine (.receive target) := by
  show change.input machine.path.input = _
  rw [same]
  cases machine.path.input <;> rfl

/-! ## Steps -/

theorem compute_path (change : Change) (path : DataPath) (op : Op) (left right : Int32) :
    compute (change.path path) op left right = change.path (compute path op left right) := by
  unfold compute
  split <;> rfl

theorem value_machine (change : Change) (machine : Machine) (argument : Argument) :
    (change.machine machine).value argument = machine.value argument := by
  cases argument <;> rfl

theorem execute_machine {instruction : Instruction} (spares : change.Spares machine instruction) :
    execute instruction (change.machine machine) = change.result (execute instruction machine) := by
  have path : (change.machine machine).path = change.path machine.path := rfl
  have register (name : Register) :
      (change.machine machine).register name = machine.register name := rfl
  cases instruction with
  | nop | halt | loadImmediate | send => rfl
  | arithmetic op target left right =>
    simp only [execute_arithmetic, path, register, value_machine, compute_path]
    rfl
  | load target address =>
    have same : (change.path machine.path).memory.read (machine.value address) =
        machine.path.memory.read (machine.value address) := spares
    simp only [execute_load, path, value_machine, same]
    cases machine.path.memory.read (machine.value address) <;> rfl
  | store source address =>
    have same : (change.path machine.path).memory.write (machine.value address)
        (machine.register source) = (machine.path.memory.write (machine.value address)
          (machine.register source)).map change.memory := spares
    simp only [execute_store, path, register, value_machine, same]
    cases machine.path.memory.write (machine.value address) (machine.register source) <;> rfl
  | receive target =>
    have same : (change.path machine.path).input = _ := spares
    simp only [execute_receive, path, same]
    cases machine.path.input <;> rfl
  | branch op left right target =>
    have truth (path : DataPath) : (change.path path).truth = path.truth := rfl
    simp only [execute_branch, path, register, compute_path, truth]
    split
    · split <;> rfl
    · rfl

/-- A step that meets the changed surroundings as the old ones is the changed step. -/
theorem step_machine (spares : change.SparesStep machine) :
    step (change.machine machine) = change.result (step machine) := by
  have refusal (op : Op) : (change.machine machine).refusal? op = machine.refusal? op := by
    have limit : (change.machine machine).config.stepLimit = machine.config.stepLimit :=
      spares.limit
    unfold refusal?
    rw [limit]
    rfl
  by_cases running : machine.status = .running
  · rw [step_of_running machine running, step_of_running (change.machine machine) running,
      spares.fetch]
    cases fetched : machine.fetch? with
    | none => rfl
    | some word =>
      have ip : (change.machine machine).ip = machine.ip := rfl
      simp only [dispatch_eq, ip, refusal]
      cases decode : word.decode machine.ip with
      | error fault => rfl
      | ok decoded =>
        cases allowed : machine.refusal? decoded.op with
        | some fault => simp only [allowed]; rfl
        | none =>
          cases found : decoded.instruction with
          | error fault => simp only [allowed, found]; rfl
          | ok instruction =>
            simp only [allowed, found]
            apply execute_machine
            by_cases hlt : decoded.op = .hlt
            · rw [Decoded.instruction_of_hlt hlt] at found
              cases found
              trivial
            · exact spares.instruction instruction
                ⟨decoded, ⟨running, word, fetched, decode⟩, hlt, allowed, found⟩
  · rw [step_of_stopped machine running, step_of_stopped (change.machine machine) running]
    rfl

theorem answer_result (change : Change) (outcome : Outcome) :
    Outcome.answer (change.result outcome) = outcome.answer := by
  cases outcome <;> rfl

theorem answer_machine (spares : change.SparesStep machine) :
    (change.machine machine).answer = machine.answer := by
  unfold answer
  rw [step_machine spares]
  cases step machine <;> rfl

theorem next_machine (spares : change.SparesStep machine) :
    (change.machine machine).next = change.machine machine.next := by
  unfold next
  rw [step_machine spares]
  cases step machine <;> rfl

/-! ## Histories and runs -/

theorem after_machine {calls : Nat}
    (spares : ∀ call < calls, change.SparesStep (machine.after call)) :
    (change.machine machine).after calls = change.machine (machine.after calls) := by
  induction calls with
  | zero => rfl
  | succ calls ih =>
    have earlier := ih fun call below => spares call (Nat.lt_succ_of_lt below)
    rw [after_succ, after_succ, earlier, next_machine (spares calls (Nat.lt_succ_self calls))]

/-- As long as the steps meet the changed surroundings as the old ones, their answers are the
same. -/
theorem answer_after {calls : Nat}
    (spares : ∀ call < calls, change.SparesStep (machine.after call)) {call : Nat}
    (below : call < calls) :
    ((change.machine machine).after call).answer = (machine.after call).answer := by
  rw [after_machine fun earlier less => spares earlier (Nat.lt_trans less below),
    answer_machine (spares call below)]

theorem goesOn_machine (spares : ∀ call, change.SparesStep (machine.after call)) {calls : Nat} :
    (change.machine machine).GoesOn calls ↔ machine.GoesOn calls := by
  have same (call : Nat) :
      ((change.machine machine).after call).answer = (machine.after call).answer :=
    answer_after (fun call _ => spares call) (Nat.lt_succ_self call)
  unfold GoesOn
  simp only [same]

theorem run_one_machine (spares : change.SparesStep machine) :
    (change.machine machine).run 1 = (machine.run 1).map change.result := by
  rw [run, run, step_machine spares]
  cases step machine with
  | error fault last => rfl
  | ok goesOn last => cases goesOn <;> rfl

/-- A run whose steps meet the changed surroundings as the old ones ends in the same way. Where a
step of it fails, it is the last one, and the run fails with its fault. -/
theorem run_machine {fuel : Nat} {outcome : Outcome} (ends : machine.run fuel = some outcome)
    (spares : ∀ call, (∀ fault, (machine.after call).answer = .error fault →
      outcome.answer = .error fault) → change.SparesStep (machine.after call)) :
    (change.machine machine).run fuel = some (change.result outcome) := by
  obtain ⟨calls, below, goesOn, last⟩ := run_eq_some_iff.1 ends
  have ahead : ∀ call < calls, change.SparesStep (machine.after call) := by
    intro call less
    refine spares call fun fault failed => ?_
    rw [goesOn call less] at failed
    cases failed
  have here : change.SparesStep (machine.after calls) := by
    refine spares calls fun fault failed => ?_
    rcases (run_one outcome).1 last with ⟨stops, -⟩ | ⟨found, fails, rfl⟩
    · rw [stops] at failed
      cases failed
    · rw [fails] at failed
      cases failed
      rfl
  refine run_eq_some_iff.2 ⟨calls, below, fun call less => ?_, ?_⟩
  · rw [answer_after ahead less, goesOn call less]
  · rw [after_machine ahead, run_one_machine here, last]
    rfl

theorem run_machine_eq (spares : ∀ call, change.SparesStep (machine.after call)) (fuel : Nat) :
    (change.machine machine).run fuel = (machine.run fuel).map change.result := by
  cases ends : machine.run fuel with
  | none => exact run_eq_none_iff.2 ((goesOn_machine spares).2 (run_eq_none_iff.1 ends))
  | some outcome => exact run_machine ends fun call _ => spares call

end

end Change

end TickMachine
