import TickMachine.Proofs.Arch.Catalog
import TickMachine.Proofs.Machine.StepLimit
import TickMachine.Proofs.Machine.StoredData

/-! # Programs without backward branches

A branch is the only instruction that goes on anywhere but at the next address, and no store makes
one: data has no arguments, so it is never decoded as a branch. When all branches of a program lead
forward, each step that goes on raises the instruction pointer, whatever the program writes over
itself, and there are no more such steps than addresses from the start on. -/

namespace TickMachine

/-- Whether every branch of a program, with its three arguments, leads to a greater address. -/
def Executable.Forward (executable : Executable) : Prop :=
  ∀ (address : Nat) (op : Op) (left right target : Int32), op.opClass = .branch →
    executable.program[address]? = some (.command op.code [left, right, target]) →
      (address : Int) < target.toInt

/-! ## Decoded branches -/

theorem Word.of_decode {word : Word} {address : Nat} {decoded : Decoded}
    (decode : word.decode address = .ok decoded) :
    word.opcode = decoded.op.code ∧ word.args = decoded.args.toList := by
  unfold Word.decode at decode
  split at decode
  · cases decode
  · next op found =>
    split at decode
    · cases decode
      exact ⟨(Op.ofCode?_eq_some_iff.1 found).symm, rfl⟩
    · cases decode

/-- A branch has three arguments, and the last one is its target. -/
theorem Decoded.args_of_branch {decoded : Decoded} {op : Op} {left right : Register}
    {target : Int32} (found : decoded.instruction = .ok (.branch op left right target)) :
    decoded.op.opClass = .branch ∧
      ∃ first second, decoded.args.toList = [first, second, target] := by
  have carries := carriesOut_instruction found
  obtain ⟨decodedOp, args⟩ := decoded
  cases carries with
  | branch branch left right target =>
    refine ⟨branch, ?_⟩
    cases decodedOp with
    | beq | bne | blt | ble | bgt | bge =>
      obtain ⟨first, -, found⟩ := bind_ok found
      obtain ⟨second, -, found⟩ := bind_ok found
      cases found
      obtain ⟨⟨list⟩, length⟩ := args
      match list, length with
      | [a, b, c], _ => exact ⟨a, b, rfl⟩
    | _ => cases branch

namespace Machine

variable {machine last : Machine}

/-! ## Where a step goes on -/

/-- A completed instruction goes on at the next address, or at the target of a branch. -/
theorem ip_of_execute {instruction : Instruction} (other : instruction ≠ .halt) {goesOn : Bool}
    (done : execute instruction machine = .ok goesOn last) :
    last.ip = machine.ip + 1 ∨
      ∃ op left right target, instruction = .branch op left right target ∧
        last.ip = target.toInt.toNat := by
  cases instruction with
  | halt => exact absurd rfl other
  | nop | loadImmediate | send | arithmetic =>
    cases done
    exact .inl rfl
  | load target address =>
    rw [execute_load] at done
    simp only at done
    split at done
    · cases done
      exact .inl rfl
    · cases done
  | store source address =>
    rw [execute_store] at done
    simp only at done
    split at done
    · cases done
      exact .inl rfl
    · cases done
  | receive target =>
    rw [execute_receive] at done
    split at done
    · cases done
    · cases done
      exact .inl rfl
  | branch op left right target =>
    rw [execute_branch] at done
    simp only at done
    split at done
    · split at done
      · cases done
        exact .inr ⟨op, left, right, target, rfl, rfl⟩
      · cases done
    · cases done
      exact .inl rfl

variable {executable : Executable} {input : List UInt8} {config : Config} {calls : Nat}

/-- A step that goes on raises the instruction pointer. -/
theorem ip_lt_next (forward : executable.Forward)
    (cells : ∀ address word, machine.path.memory.word? address = some word →
      executable.program[address]? = some word ∨ word.IsData)
    (answered : machine.answer = .ok true) : machine.ip < machine.next.ip := by
  obtain ⟨instruction, performs, -⟩ := completes_of_true answered
  have done := step_of_ok answered
  rw [step_of_performs performs] at done
  rcases ip_of_execute performs.ne_halt done with next | ⟨op, left, right, target, rfl, next⟩
  · omega
  · obtain ⟨decoded, ⟨-, word, fetched, decode⟩, -, -, found⟩ := performs
    obtain ⟨branch, first, second, args⟩ := Decoded.args_of_branch found
    obtain ⟨opcode, given⟩ := Word.of_decode decode
    rw [args] at given
    rcases cells _ _ (word?_of_fetch? machine fetched) with loaded | ⟨value, rfl⟩
    · cases word with
      | data value => cases given
      | command code arguments =>
        cases given
        cases opcode
        have ahead := forward _ _ _ _ _ branch loaded
        omega
    · cases given

/-- Steps that go on raise the instruction pointer at least once each. -/
theorem ip_after (forward : executable.Forward)
    (goesOn : (load executable input config).GoesOn calls) :
    executable.start + calls ≤ ((load executable input config).after calls).ip := by
  induction calls with
  | zero => exact Nat.le_refl _
  | succ calls ih =>
    have before := ih (goesOn.of_le (Nat.le_succ calls))
    have raised := ip_lt_next forward (fun _ _ found => cells_after found)
      (goesOn calls (Nat.lt_succ_self calls))
    rw [after_succ]
    omega

/-- A machine goes on only inside its program. -/
theorem ip_lt_of_true (answered : machine.answer = .ok true) :
    machine.ip < machine.programLength := by
  obtain ⟨instruction, ⟨decoded, ⟨-, word, fetched, -⟩, -⟩, -⟩ := completes_of_true answered
  unfold fetch? at fetched
  split at fetched
  · assumption
  · cases fetched

/-- No more steps go on than there are addresses from the start on. -/
theorem calls_le_of_forward (forward : executable.Forward)
    (goesOn : (load executable input config).GoesOn calls) :
    calls ≤ executable.program.length - min executable.start executable.program.length := by
  cases calls with
  | zero => exact Nat.zero_le _
  | succ calls =>
    have raised := ip_after forward (goesOn.of_le (Nat.le_succ calls))
    have inside := ip_lt_of_true (goesOn calls (Nat.lt_succ_self calls))
    rw [(keeps_after (load executable input config) calls).programLength] at inside
    have length : (load executable input config).programLength = executable.program.length := rfl
    omega

/-! ## Runs -/

/-- The steps that go on are counted, as far as the counter can count. -/
theorem instructions_of_goesOn (goesOn : (load executable input config).GoesOn calls) :
    ((load executable input config).after calls).instructions = min calls Counter.limit := by
  induction calls with
  | zero => rfl
  | succ calls ih =>
    have before := ih (goesOn.of_le (Nat.le_succ calls))
    rw [after_succ, instructions_next_of_true (goesOn calls (Nat.lt_succ_self calls)), before,
      Counter.next]
    omega

/-- A report tells the instructions of the machine that has stopped. -/
theorem instructions_of_report {outcome : Outcome} {report : Report}
    (ends : run 1 machine = some outcome) (reported : outcome.answer = .ok report) :
    report.instructions = outcome.machine.instructions := by
  rcases (run_one outcome).1 ends with ⟨-, rfl⟩ | ⟨fault, -, rfl⟩
  · cases reported
    rfl
  · cases reported

/-- A program all of whose branches lead forward stops. Its run goes on for no more steps than there
are addresses from the start on, and ends with the next one in a report or a fault, whatever the
program has written over itself. -/
theorem forward_programs_stop {executable : Executable} (forward : executable.Forward)
    (input : List UInt8) (config : Config) :
    ∃ calls ≤ executable.program.length - min executable.start executable.program.length,
      ∃ outcome, (load executable input config).GoesOn calls ∧
        (∀ fuel, calls < fuel → (load executable input config).run fuel = some outcome) ∧
        outcome.machine.instructions = min calls Counter.limit ∧
        ∀ report, outcome.answer = .ok report → report.instructions = min calls Counter.limit := by
  let bound := executable.program.length - min executable.start executable.program.length
  cases ended : (load executable input config).run (bound + 1) with
  | none =>
    have tooMany : bound + 1 ≤ bound := calls_le_of_forward forward (run_eq_none_iff.1 ended)
    omega
  | some outcome =>
    obtain ⟨calls, below, goesOn, ends⟩ := run_eq_some_iff.1 ended
    have counted := (instructions_of_run_one ends).trans (instructions_of_goesOn goesOn)
    refine ⟨calls, Nat.le_of_lt_succ below, outcome, goesOn, ?_, counted, ?_⟩
    · intro fuel enough
      exact run_eq_some_iff.2 ⟨calls, enough, goesOn, ends⟩
    · intro report reported
      rw [instructions_of_report ends reported, counted]

/-- A program puts the code of a branch over its own HLT. The step there finds no arguments. -/
theorem forward_programs_stop_overwritten :
    let executable : Executable :=
      ⟨0, [.command 11 [1, 16], .command 13 [1, 3], .command 16 [0, 0, 3], .command 22 []]⟩
    executable.Forward ∧
      ∃ calls ≤ 4, ∃ outcome, (load executable [] {}).GoesOn calls ∧
        (∀ fuel, calls < fuel → (load executable [] {}).run fuel = some outcome) ∧
        outcome.machine.instructions = min calls Counter.limit ∧
        (∀ report, outcome.answer = .ok report → report.instructions = min calls Counter.limit) ∧
        outcome.answer = .error (.argumentCount .beq 3 3 0) := by
  intro executable
  have forward : executable.Forward := by
    intro address op left right target branch found
    match address with
    | 0 | 1 | 3 =>
      have args := (Word.command.inj (Option.some.inj found)).2
      cases args
    | 2 =>
      have args : [0, 0, 3] = [left, right, target] := (Word.command.inj (Option.some.inj found)).2
      cases args
      decide
    | address + 4 => cases found
  obtain ⟨calls, bounded, outcome, goesOn, ends, counted, reports⟩ :=
    forward_programs_stop forward [] {}
  have below : calls < 5 := Nat.lt_succ_of_le bounded
  have fails : ((load executable [] {}).run 5).bind (errorOf? ·.answer) =
      some (.argumentCount .beq 3 3 0) := by
    decide +kernel
  rw [ends 5 below, Option.bind_some] at fails
  exact ⟨forward, calls, bounded, outcome, goesOn, ends, counted, reports,
    errorOf?_eq_some_iff.1 fails⟩

end Machine

end TickMachine
