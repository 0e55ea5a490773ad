import Mathlib.Algebra.GroupWithZero.Nat
import TickMachine.Proofs.Machine.Failure
import TickMachine.Proofs.Machine.RunsBySteps
import TickMachine.Proofs.Machine.StepLimit
import TickMachine.Proofs.Machine.StoredData
import TickMachine.Proofs.Machine.TableFollowed

/-! # Ticks

A completed instruction costs two ticks when it goes through the arithmetic unit or to memory, and
one tick otherwise. An instruction that fails has spent one tick when it got as far as an address or
a comparison, and none before. The counters of a machine are the sums of this over the steps that
it has made, in whatever way they ended, as far as a counter can count. -/

namespace TickMachine

/-- The ticks of an operation that is completed. -/
def Op.ticks (op : Op) : Nat :=
  if op.opClass = .arithmetic ∨ op ∈ [.ld, .st, .lda, .sta] then 2 else 1

/-- The ticks that an instruction has spent when it fails. -/
def Fault.ticks : Fault → Nat
  | .memoryOutOfBounds _ | .invalidBranchTarget _ => 1
  | _ => 0

theorem Op.ticks_bounds (op : Op) : 1 ≤ op.ticks ∧ op.ticks ≤ 2 := by
  unfold ticks
  split <;> decide

theorem Fault.ticks_of_undecoded {fault : Fault} (undecoded : fault.undecoded = true) :
    fault.ticks = 0 := by
  cases fault <;> first | rfl | cases undecoded

theorem Word.ofCode?_of_decode {address : Nat} {word : Word} {decoded : Decoded}
    (decode : word.decode address = .ok decoded) : Op.ofCode? word.opcode = some decoded.op := by
  unfold Word.decode at decode
  split at decode
  · cases decode
  · next found =>
    split at decode
    · cases decode
      exact found
    · cases decode

namespace Machine

/-- The operation of the word at the instruction pointer. -/
def op? (machine : Machine) : Option Op := machine.fetch?.bind fun word => Op.ofCode? word.opcode

/-- Whether the next step goes on. -/
def advances (machine : Machine) : Bool :=
  match machine.answer with
  | .ok goesOn => goesOn
  | .error _ => false

/-- The ticks of the next step. -/
def cost (machine : Machine) : Nat :=
  match machine.answer with
  | .ok true => machine.op?.elim 0 Op.ticks
  | .ok false => 0
  | .error fault => fault.ticks

variable {machine last : Machine} {op : Op} {instruction : Instruction} {fault : Fault}

/-! ## Instructions -/

theorem op?_of_decodes {decoded : Decoded} (decodes : machine.Decodes decoded) :
    machine.op? = some decoded.op := by
  obtain ⟨-, word, fetched, decode⟩ := decodes
  rw [op?, fetched]
  exact Word.ofCode?_of_decode decode

/-- A completed instruction has spent the ticks of its operation. -/
theorem ticks_of_completed (carries : Instruction.CarriesOut op instruction)
    (other : instruction ≠ .halt) {goesOn : Bool}
    (done : execute instruction machine = .ok goesOn last) :
    last.ticks = min (machine.ticks + op.ticks) Counter.limit := by
  have long {path : DataPath} : (machine.completeLong path).ticks =
      min (machine.ticks + 2) Counter.limit :=
    InstructionTable.counter_next_next machine.ticks
  cases carries with
  | nop =>
    cases done
    rfl
  | halt => exact absurd rfl other
  | loadImmediate target value =>
    cases done
    rfl
  | arithmetic arithmetic target left right =>
    cases done
    rw [Op.ticks, if_pos (.inl arithmetic)]
    exact long
  | load loads target address =>
    have ticks : op.ticks = 2 := by rcases loads with rfl | rfl <;> rfl
    rw [execute_load] at done
    simp only at done
    split at done
    · cases done
      rw [ticks]
      exact long
    · cases done
  | store stores source address =>
    have ticks : op.ticks = 2 := by rcases stores with rfl | rfl <;> rfl
    rw [execute_store] at done
    simp only at done
    split at done
    · cases done
      rw [ticks]
      exact long
    · cases done
  | receive target =>
    rw [execute_receive] at done
    split at done
    · cases done
    · cases done
      rfl
  | send source =>
    cases done
    rfl
  | branch branch left right target =>
    have ticks : op.ticks = 1 := by
      cases op with
      | beq | bne | blt | ble | bgt | bge => rfl
      | _ => cases branch
    rw [execute_branch] at done
    simp only at done
    rw [ticks]
    split at done
    · split at done
      · cases done
        rfl
      · cases done
    · cases done
      rfl

/-- An instruction that fails has spent the ticks of its fault. -/
theorem ticks_of_failed (full : machine.ticks ≤ Counter.limit)
    (failed : execute instruction machine = .error fault last) :
    last.ticks = min (machine.ticks + fault.ticks) Counter.limit := by
  cases instruction with
  | nop | halt | loadImmediate | send | arithmetic => cases failed
  | load target address =>
    rw [execute_load, Memory.read_eq] at failed
    cases cell : machine.path.memory.cell? (machine.value address) with
    | none =>
      simp only [cell] at failed
      cases failed
      rfl
    | some word =>
      simp only [cell] at failed
      cases failed
  | store source address =>
    rw [execute_store, Memory.write_eq] at failed
    cases cell : machine.path.memory.cell? (machine.value address) with
    | none =>
      simp only [cell] at failed
      cases failed
      rfl
    | some word =>
      simp only [cell] at failed
      cases failed
  | receive target =>
    rw [execute_receive] at failed
    split at failed
    · cases failed
      exact (Nat.min_eq_left full).symm
    · cases failed
  | branch op left right target =>
    rw [execute_branch] at failed
    simp only at failed
    split at failed
    · split at failed
      · cases failed
      · cases failed
        rfl
    · cases failed

/-! ## Steps -/

theorem ticks_of_refused {op : Op} (refused : machine.refusal? op = some fault) :
    fault.ticks = 0 := by
  unfold refusal? at refused
  split at refused
  · split at refused
    · cases refused
      rfl
    · cases refused
  · cases refused

/-- A step adds its cost to the ticks. -/
theorem ticks_next (full : machine.ticks ≤ Counter.limit) :
    machine.next.ticks = min (machine.ticks + machine.cost) Counter.limit := by
  have still : machine.ticks = min (machine.ticks + 0) Counter.limit :=
    (Nat.min_eq_left full).symm
  cases stepped machine with
  | rests stopped answer next => simpa only [cost, answer, next] using still
  | leaves leaves answer next => simpa only [cost, answer, next] using still
  | halts halts answer next => simpa only [cost, answer, next] using still
  | undecoded running fetched refused answer next =>
    have spent := Fault.ticks_of_undecoded (Word.undecoded_of_decode refused)
    simpa only [cost, answer, next, spent] using still
  | exceeds decodes refused answer next =>
    simpa only [cost, answer, next, ticks_of_refused refused] using still
  | misnamed decodes refused answer next =>
    obtain ⟨code, rfl⟩ := Decoded.invalidRegister_of_instruction refused
    simpa only [cost, answer, next, Fault.ticks] using still
  | completes performs answer =>
    have done := step_of_ok answer
    rw [step_of_performs performs] at done
    have ⟨decoded, decodes, _, _, found⟩ := performs
    rw [ticks_of_completed (Decoded.carriesOut_instruction found) performs.ne_halt done]
    simp only [cost, answer, op?_of_decodes decodes, Option.elim]
  | fails performs failed answer =>
    rw [ticks_of_failed full failed]
    simp only [cost, answer]

theorem advances_iff : machine.advances = true ↔ machine.answer = .ok true := by
  unfold advances
  cases machine.answer <;> simp

/-- A step that goes on is counted as an instruction. -/
theorem instructions_next (full : machine.instructions ≤ Counter.limit) :
    machine.next.instructions =
      min (machine.instructions + if machine.advances then 1 else 0) Counter.limit := by
  cases goesOn : machine.advances with
  | true =>
    rw [instructions_next_of_true (advances_iff.1 goesOn)]
    rfl
  | false =>
    have stays : machine.answer ≠ .ok true := by
      intro answered
      rw [advances_iff.2 answered] at goesOn
      cases goesOn
    rw [instructions_next_of_ne_true stays]
    exact (Nat.min_eq_left full).symm

/-- Without a failure, a step costs a tick or two where it goes on, and nothing where it stops. -/
theorem cost_bounds (succeeds : ∀ fault, machine.answer ≠ .error fault) :
    (if machine.advances then 1 else 0) ≤ machine.cost ∧
      machine.cost ≤ 2 * if machine.advances then 1 else 0 := by
  cases answer : machine.answer with
  | error fault => exact absurd answer (succeeds fault)
  | ok goesOn =>
    cases goesOn with
    | false => simp [advances, cost, answer]
    | true =>
      obtain ⟨instruction, ⟨decoded, decodes, -⟩, -⟩ := completes_of_true answer
      have bounds := decoded.op.ticks_bounds
      simpa [advances, cost, answer, op?_of_decodes decodes] using bounds

/-! ## Sequences of steps -/

/-- The counters of a machine are those of the steps that have been made from some machines. -/
structure Counted (origins : List Machine) (machine : Machine) : Prop where
  instructions : machine.instructions = min (origins.countP advances) Counter.limit
  ticks : machine.ticks = min (origins.map cost).sum Counter.limit

variable {origins : List Machine}

theorem counted_next (counted : Counted origins machine) :
    Counted (origins ++ [machine]) machine.next := by
  have instructions := counted.instructions
  have ticks := counted.ticks
  constructor
  · rw [instructions_next (by omega), List.countP_append, List.countP_singleton, instructions]
    omega
  · rw [ticks_next (by omega), List.map_append, List.sum_append, List.map_singleton,
      List.sum_singleton, ticks]
    omega

theorem counted_after (counted : Counted origins machine) (calls : Nat) :
    Counted (origins ++ machine.origins calls) (machine.after calls) := by
  induction calls with
  | zero => simpa [Machine.origins, after] using counted
  | succ calls ih =>
    rw [after_succ, origins_succ, ← List.append_assoc]
    exact counted_next ih

theorem counted_of_calls {start : Machine} (fresh : Counted [] start)
    (made : Calls start origins machine) : Counted origins machine := by
  induction made with
  | none => exact fresh
  | step earlier ih => exact counted_next ih
  | @run origins machine calls outcome earlier goesOn ends ih =>
    have counted := counted_after ih (calls + 1)
    rcases machine_of_run goesOn ends with same | same
    · rwa [same]
    · rw [same]
      exact ⟨counted.instructions, counted.ticks⟩

/-- Steps that do not fail cost a tick or two for each instruction. -/
theorem ticks_bounds (counted : Counted origins machine)
    (succeed : ∀ origin ∈ origins, ∀ fault, origin.answer ≠ .error fault) :
    machine.instructions ≤ machine.ticks ∧ machine.ticks ≤ 2 * machine.instructions := by
  have sums : origins.countP advances ≤ (origins.map cost).sum ∧
      (origins.map cost).sum ≤ 2 * origins.countP advances := by
    clear counted
    induction origins with
    | nil => simp
    | cons origin others ih =>
      have first := cost_bounds (succeed origin List.mem_cons_self)
      have rest := ih fun other member => succeed other (List.mem_cons_of_mem _ member)
      rw [List.countP_cons, List.map_cons, List.sum_cons]
      omega
  rw [counted.instructions, counted.ticks]
  omega

theorem counted_load (executable : Executable) (input : List UInt8) (config : Config) :
    Counted [] (load executable input config) := ⟨rfl, rfl⟩

/-- The counters account for every step. After any calls of `step` and of `run` on a loaded program,
the instructions are the steps that went on, and the ticks are what the steps have cost, those that
failed included. Where no step has failed, and so in every report, there are between one and two
ticks for an instruction. -/
theorem ticks_account_for_steps (executable : Executable) (input : List UInt8) (config : Config) :
    (∀ (origins : List Machine) (machine : Machine),
      Calls (load executable input config) origins machine →
        machine.instructions = min (origins.countP advances) Counter.limit ∧
        machine.ticks = min (origins.map cost).sum Counter.limit ∧
        ((∀ origin ∈ origins, ∀ fault, origin.answer ≠ .error fault) →
          machine.instructions ≤ machine.ticks ∧ machine.ticks ≤ 2 * machine.instructions)) ∧
    ∀ (fuel : Nat) (report : Report) (rest : Machine),
      (load executable input config).run fuel = some (.ok report rest) →
        report.instructions ≤ report.ticks ∧ report.ticks ≤ 2 * report.instructions := by
  have fresh := counted_load executable input config
  constructor
  · intro origins machine made
    have counted := counted_of_calls fresh made
    exact ⟨counted.instructions, counted.ticks, ticks_bounds counted⟩
  · intro fuel report rest ends
    obtain ⟨calls, -, goesOn, answered, rfl, -⟩ := run_ok_iff.1 ends
    refine ticks_bounds (counted_after fresh (calls + 1)) ?_
    intro origin member fault failed
    obtain ⟨call, among, rfl⟩ := List.mem_map.1 member
    rcases Nat.lt_succ_iff_lt_or_eq.1 (List.mem_range.1 among) with below | rfl
    · rw [goesOn call below] at failed
      cases failed
    · rw [answered] at failed
      cases failed

/-- A load that goes on, and a store that fails twice, with a tick each time. -/
theorem ticks_account_for_steps_retried :
    let program : Executable := ⟨0, [.command 12 [1, 0], .command 13 [0, 9]]⟩
    let start := load program [] ⟨1, none⟩
    Calls start [start, start.next, start.next.next] start.next.next.next ∧
      start.next.answer = .error (.memoryOutOfBounds 9) ∧
      start.next.next.answer = .error (.memoryOutOfBounds 9) ∧
      start.next.next.next.instructions =
        min ([start, start.next, start.next.next].countP advances) Counter.limit ∧
      start.next.next.next.ticks =
        min ([start, start.next, start.next.next].map cost).sum Counter.limit ∧
      start.next.next.next.instructions = 1 ∧ start.next.next.next.ticks = 4 := by
  intro program start
  have made : Calls start [start, start.next, start.next.next] start.next.next.next :=
    ((Calls.none.step).step).step
  have fails : (load ⟨0, [.command 12 [1, 0], .command 13 [0, 9]]⟩ [] ⟨1, none⟩).next.answer =
      .error (.memoryOutOfBounds 9) := by
    rfl
  have again := (next_fails (next_fails (Intact.refl start.next) fails).2.intact fails).1
  have counted : start.next.next.next.instructions = 1 ∧ start.next.next.next.ticks = 4 := by
    decide +kernel
  obtain ⟨instructions, ticks, -⟩ := (ticks_account_for_steps program [] ⟨1, none⟩).1 _ _ made
  exact ⟨made, fails, again, instructions, ticks, counted⟩

end Machine

end TickMachine
