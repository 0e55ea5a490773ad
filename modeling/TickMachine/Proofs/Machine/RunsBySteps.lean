import TickMachine.Machine.Event
import TickMachine.Proofs.Machine.Failure
import TickMachine.Proofs.Machine.Runs

/-! # Runs agree with steps

A run reports what repeated calls of `step` come to, and it does so however many calls have been
made before it: calls after the end change nothing, and calls after a failure fail again. The
report says that a machine has halted exactly when HLT has been executed. -/

namespace TickMachine.Machine

variable {machine : Machine} {calls fuel : Nat}

/-! ## How steps stop a machine -/

/-- The machines from which the first calls of `step` set out. -/
def origins (machine : Machine) (calls : Nat) : List Machine :=
  (List.range calls).map fun call => machine.after call

theorem origins_succ (calls : Nat) :
    machine.origins (calls + 1) = machine.origins calls ++ [machine.after calls] := by
  simp [origins, List.range_succ]

theorem halted_after_iff (calls : Nat) :
    (machine.after calls).status = .halted ↔
      machine.status = .halted ∨ ∃ origin ∈ machine.origins calls, origin.Halts := by
  induction calls with
  | zero => simp [after, origins]
  | succ calls ih =>
    rw [after_succ, halted_next_iff, ih, or_assoc, origins_succ]
    simp [or_and_right, exists_or]

theorem ended_after_iff (calls : Nat) :
    (machine.after calls).status = .ended ↔
      machine.status = .ended ∨ ∃ origin ∈ machine.origins calls, origin.Leaves := by
  induction calls with
  | zero => simp [after, origins]
  | succ calls ih =>
    rw [after_succ, ended_next_iff, ih, or_assoc, origins_succ]
    simp [or_and_right, exists_or]

/-- A machine that has stopped stays as it is. -/
theorem after_of_stopped (stopped : machine.status ≠ .running) (calls : Nat) :
    machine.after calls = machine := by
  induction calls with
  | zero => rfl
  | succ calls ih => rw [after_succ, ih, (next_of_stopped stopped).2]

/-! ## What a machine sends -/

/-- The bytes that the next step puts at the end of the output, provided that it succeeds. -/
def sent (machine : Machine) : List UInt8 :=
  match machine.event? with
  | some (.sent byte) => [byte]
  | _ => []

theorem instruction?_of_performs {instruction : Instruction}
    (performs : machine.Performs instruction) : machine.instruction? = some instruction := by
  obtain ⟨decoded, ⟨running, word, fetched, decode⟩, -, -, found⟩ := performs
  simp [instruction?, word?_of_fetch? machine fetched, decode, found, Except.toOption]

theorem sent_of_performs {instruction : Instruction} (performs : machine.Performs instruction) :
    machine.sent = machine.sentBy instruction := by
  unfold sent event?
  rw [instruction?_of_performs performs]
  cases instruction <;> rfl

/-- A step that goes on puts what it sends at the end of the output. -/
theorem output_next_of_true (answered : machine.answer = .ok true) :
    machine.next.path.output.toList = machine.path.output.toList ++ machine.sent := by
  obtain ⟨instruction, performs, completes⟩ := completes_of_true answered
  rw [completes.output, sent_of_performs performs]

theorem output_after (goesOn : machine.GoesOn calls) :
    (machine.after calls).path.output.toList =
      machine.path.output.toList ++ (machine.origins calls).flatMap sent := by
  induction calls with
  | zero => exact (List.append_nil _).symm
  | succ calls ih =>
    have before := ih (goesOn.of_le (Nat.le_succ calls))
    have last := output_next_of_true (goesOn calls (Nat.lt_succ_self calls))
    rw [after_succ, last, before, origins_succ, List.flatMap_append, List.append_assoc,
      List.flatMap_singleton]

/-! ## Ends of runs -/

theorem run_ok_iff {report : Report} {rest : Machine} :
    run fuel machine = some (.ok report rest) ↔
      ∃ calls < fuel, machine.GoesOn calls ∧ (machine.after calls).answer = .ok false ∧
        report = (machine.after (calls + 1)).report ∧
        rest = (machine.after (calls + 1)).drain := by
  rw [run_eq_some_iff]
  simp only [run_one, after_succ, finish]
  constructor
  · rintro ⟨calls, below, goesOn, ⟨answered, same⟩ | ⟨fault, answered, other⟩⟩
    · cases same
      exact ⟨calls, below, goesOn, answered, rfl, rfl⟩
    · cases other
  · rintro ⟨calls, below, goesOn, answered, rfl, rfl⟩
    exact ⟨calls, below, goesOn, .inl ⟨answered, rfl⟩⟩

theorem run_error_iff {fault : Fault} {rest : Machine} :
    run fuel machine = some (.error fault rest) ↔
      ∃ calls < fuel, machine.GoesOn calls ∧ (machine.after calls).answer = .error fault ∧
        rest = machine.after (calls + 1) := by
  rw [run_eq_some_iff]
  simp only [run_one, after_succ, finish]
  constructor
  · rintro ⟨calls, below, goesOn, ⟨answered, other⟩ | ⟨found, answered, same⟩⟩
    · cases other
    · cases same
      exact ⟨calls, below, goesOn, answered, rfl⟩
  · rintro ⟨calls, below, goesOn, answered, rfl⟩
    exact ⟨calls, below, goesOn, .inr ⟨fault, answered, rfl⟩⟩

/-- The run of a machine ends with an answer. -/
def RunAnswers (machine : Machine) (answer : Except Fault Report) : Prop :=
  ∃ fuel, (machine.run fuel).map Outcome.answer = some answer

/-- A step that does not go on, made before a run, does not change what the run answers. -/
theorem answer_run_next (answered : machine.answer ≠ .ok true) (fuel : Nat) :
    (machine.next.run fuel).map Outcome.answer = (machine.run fuel).map Outcome.answer := by
  cases fuel with
  | zero => rfl
  | succ fuel =>
    cases answer : machine.answer with
    | error fault =>
      have again := (next_fails (next_fails (Intact.refl machine) answer).2.intact answer).1
      rw [run_of_error answer, run_of_error again]
      rfl
    | ok goesOn =>
      cases goesOn with
      | true => exact absurd answer answered
      | false =>
        obtain ⟨again, rests⟩ := next_of_stopped (stopped_of_false answer)
        rw [run_of_false answer, run_of_false again, rests]

theorem runAnswers_next_iff (answer : Except Fault Report) :
    machine.next.RunAnswers answer ↔ machine.RunAnswers answer := by
  by_cases answered : machine.answer = .ok true
  · constructor
    · rintro ⟨fuel, ends⟩
      exact ⟨fuel + 1, by rw [run_of_true answered, ends]⟩
    · rintro ⟨fuel, ends⟩
      cases fuel with
      | zero => cases ends
      | succ fuel => exact ⟨fuel, by rw [← run_of_true answered, ends]⟩
  · simp only [RunAnswers, answer_run_next answered]

theorem runAnswers_after_iff (calls : Nat) (answer : Except Fault Report) :
    (machine.after calls).RunAnswers answer ↔ machine.RunAnswers answer := by
  induction calls with
  | zero => exact Iff.rfl
  | succ calls ih => rw [after_succ, runAnswers_next_iff, ih]

/-! ## Steps and runs in any order -/

/-- Calls of `step` and of `run`, in any order, lead from a machine to another one. The machines
from which the steps on the way set out are listed. -/
inductive Calls (start : Machine) : List Machine → Machine → Prop
  | none : Calls start [] start
  | step {origins : List Machine} {machine : Machine} (earlier : Calls start origins machine) :
    Calls start (origins ++ [machine]) machine.next
  | run {origins : List Machine} {machine : Machine} {calls : Nat} {outcome : Outcome}
    (earlier : Calls start origins machine) (goesOn : machine.GoesOn calls)
    (ends : machine.run (calls + 1) = some outcome) :
    Calls start (origins ++ machine.origins (calls + 1)) outcome.machine

/-- A run leaves the machine that its steps leave, up to the output. -/
theorem machine_of_run {outcome : Outcome} (goesOn : machine.GoesOn calls)
    (ends : machine.run (calls + 1) = some outcome) :
    outcome.machine = machine.after (calls + 1) ∨
      outcome.machine = (machine.after (calls + 1)).drain := by
  have last : run 1 (machine.after calls) = some outcome :=
    (run_of_goesOn goesOn 1).symm.trans ends
  rw [after_succ]
  rcases (run_one outcome).1 last with ⟨-, rfl⟩ | ⟨fault, -, rfl⟩
  · exact .inr rfl
  · exact .inl rfl

theorem status_of_run {outcome : Outcome} (goesOn : machine.GoesOn calls)
    (ends : machine.run (calls + 1) = some outcome) :
    outcome.machine.status = (machine.after (calls + 1)).status := by
  rcases machine_of_run goesOn ends with same | same <;> rw [same]
  rfl

/-- Memory has a cell for every word of the program. -/
def HoldsProgram (machine : Machine) : Prop :=
  machine.programLength ≤ machine.path.memory.size

theorem HoldsProgram.of_keeps {other : Machine} (holds : machine.HoldsProgram)
    (keeps : Keeps machine other) : other.HoldsProgram := by
  unfold HoldsProgram at holds ⊢
  rwa [keeps.programLength, keeps.size]

theorem holdsProgram_load (executable : Executable) (input : List UInt8) (config : Config) :
    (load executable input config).HoldsProgram := by
  simp [HoldsProgram, load, Memory.load, Memory.size]

section

variable {start : Machine} {origins : List Machine}

theorem halted_of_calls (made : Calls start origins machine) :
    machine.status = .halted ↔ start.status = .halted ∨ ∃ origin ∈ origins, origin.Halts := by
  induction made with
  | none => simp
  | step earlier ih => simp [halted_next_iff, ih, or_assoc, or_and_right, exists_or]
  | run earlier goesOn ends ih =>
    rw [status_of_run goesOn ends, halted_after_iff, ih, or_assoc]
    simp [or_and_right, exists_or]

theorem ended_of_calls (made : Calls start origins machine) :
    machine.status = .ended ↔ start.status = .ended ∨ ∃ origin ∈ origins, origin.Leaves := by
  induction made with
  | none => simp
  | step earlier ih => simp [ended_next_iff, ih, or_assoc, or_and_right, exists_or]
  | run earlier goesOn ends ih =>
    rw [status_of_run goesOn ends, ended_after_iff, ih, or_assoc]
    simp [or_and_right, exists_or]

theorem holdsProgram_of_calls (holds : start.HoldsProgram) (made : Calls start origins machine) :
    machine.HoldsProgram := by
  induction made with
  | none => exact holds
  | step earlier ih => exact ih.of_keeps (keeps_next _)
  | @run origins machine calls outcome earlier goesOn ends ih =>
    have stays := ih.of_keeps (keeps_after machine (calls + 1))
    rcases machine_of_run goesOn ends with same | same
    · rwa [same]
    · rwa [same]

/-- In front of a step, memory has a cell at every address of the program. -/
theorem fetch?_eq_none_iff (holds : machine.HoldsProgram) :
    machine.fetch? = none ↔ machine.programLength ≤ machine.ip := by
  unfold fetch?
  split
  · next inside =>
    have present : machine.path.memory.word? machine.ip ≠ none := by
      unfold HoldsProgram at holds
      simp only [Memory.word?, ne_eq, Array.getElem?_eq_none_iff, Memory.size] at *
      omega
    simp [present, Nat.not_le.2 inside]
  · next outside => simp [Nat.not_lt.1 outside]

theorem leaves_iff (holds : machine.HoldsProgram) :
    machine.Leaves ↔ machine.status = .running ∧ machine.programLength ≤ machine.ip := by
  rw [Leaves, fetch?_eq_none_iff holds]

end

/-! ## Runs agree with steps -/

/-- What the report of a run says when its last step is the one after a number of calls. The report
names how the machine has been stopped, by that step or before the run. -/
structure Reports (machine : Machine) (calls : Nat) (report : Report) : Prop where
  output : report.output = (machine.after (calls + 1)).path.output.toList
  ticks : report.ticks = (machine.after (calls + 1)).ticks
  instructions : report.instructions = (machine.after (calls + 1)).instructions
  halted : report.halted = true ↔
    machine.status = .halted ∨ ∃ origin ∈ machine.origins (calls + 1), origin.Halts
  ended : report.halted = false ↔
    machine.status = .ended ∨ ∃ origin ∈ machine.origins (calls + 1), origin.Leaves

theorem reports_report (answered : (machine.after calls).answer = .ok false) :
    machine.Reports calls (machine.after (calls + 1)).report := by
  have stopped : (machine.after (calls + 1)).status ≠ .running := by
    rw [after_succ]
    exact stopped_of_false answered
  generalize last : machine.after (calls + 1) = stop at stopped
  refine ⟨by rw [last, report], by rw [last, report], by rw [last, report], ?_, ?_⟩
  · rw [← halted_after_iff, last]
    exact beq_iff_eq
  · rw [← ended_after_iff, last]
    cases status : stop.status with
    | running => exact absurd status stopped
    | halted => simp [report, status]
    | ended => simp [report, status]

/-- The runs of a machine, as far as its steps tell. -/
structure RunsBySteps (machine : Machine) : Prop where
  /-- A run has one outcome. -/
  unique {fuel more : Nat} {outcome other : Outcome} : machine.run fuel = some outcome →
    machine.run more = some other → outcome = other
  /-- A run ends in a report exactly when steps that go on lead to one that stops. -/
  reports_iff : (∃ fuel report rest, machine.run fuel = some (.ok report rest)) ↔
    ∃ calls, machine.GoesOn calls ∧ (machine.after calls).answer = .ok false
  /-- The report is about the machine after these steps. -/
  reports {fuel : Nat} {report : Report} {rest : Machine} :
    machine.run fuel = some (.ok report rest) →
      ∃ calls, machine.GoesOn calls ∧ (machine.after calls).answer = .ok false ∧
        machine.Reports calls report ∧ rest = (machine.after (calls + 1)).drain
  /-- Behind the report the output is empty, and neither a step nor a run changes anything. -/
  rests {fuel : Nat} {report : Report} {rest : Machine} :
    machine.run fuel = some (.ok report rest) →
      rest.path.output = #[] ∧
      (∀ calls, rest.after calls = rest ∧ (rest.after calls).answer = .ok false) ∧
      ∀ more, rest.run (more + 1) = some (.ok { report with output := [] } rest)
  /-- A run ends in a fault exactly when steps that go on lead to one that fails with it. -/
  fails_iff (fault : Fault) : (∃ fuel rest, machine.run fuel = some (.error fault rest)) ↔
    ∃ calls, machine.GoesOn calls ∧ (machine.after calls).answer = .error fault
  /-- Behind the fault the output holds what was there, and what these steps have sent. -/
  fails {fuel : Nat} {fault : Fault} {rest : Machine} :
    machine.run fuel = some (.error fault rest) →
      ∃ calls, machine.GoesOn calls ∧ (machine.after calls).answer = .error fault ∧
        rest = machine.after (calls + 1) ∧
        rest.path.output.toList =
          machine.path.output.toList ++ (machine.origins calls).flatMap sent
  /-- Steps that are made before a run do not change what it answers. -/
  mixed (calls : Nat) (answer : Except Fault Report) :
    (machine.after calls).RunAnswers answer ↔ machine.RunAnswers answer

theorem runsBySteps (machine : Machine) : machine.RunsBySteps where
  unique := run_unique
  reports_iff := by
    constructor
    · rintro ⟨fuel, report, rest, ends⟩
      obtain ⟨calls, -, goesOn, answered, -⟩ := run_ok_iff.1 ends
      exact ⟨calls, goesOn, answered⟩
    · rintro ⟨calls, goesOn, answered⟩
      exact ⟨calls + 1, _, _,
        run_ok_iff.2 ⟨calls, Nat.lt_succ_self calls, goesOn, answered, rfl, rfl⟩⟩
  reports := by
    intro fuel report rest ends
    obtain ⟨calls, -, goesOn, answered, rfl, rfl⟩ := run_ok_iff.1 ends
    exact ⟨calls, goesOn, answered, reports_report answered, rfl⟩
  rests := by
    intro fuel report rest ends
    obtain ⟨calls, -, goesOn, answered, rfl, rfl⟩ := run_ok_iff.1 ends
    have stopped : (machine.after (calls + 1)).drain.status ≠ .running := by
      rw [after_succ]
      exact stopped_of_false answered
    generalize machine.after (calls + 1) = stop at stopped
    obtain ⟨again, rests⟩ := next_of_stopped stopped
    refine ⟨rfl, ?_, ?_⟩
    · intro calls
      rw [after_of_stopped stopped]
      exact ⟨rfl, again⟩
    · intro more
      rw [run_of_false again, rests]
      rfl
  fails_iff := by
    intro fault
    constructor
    · rintro ⟨fuel, rest, ends⟩
      obtain ⟨calls, -, goesOn, answered, -⟩ := run_error_iff.1 ends
      exact ⟨calls, goesOn, answered⟩
    · rintro ⟨calls, goesOn, answered⟩
      exact ⟨calls + 1, _,
        run_error_iff.2 ⟨calls, Nat.lt_succ_self calls, goesOn, answered, rfl⟩⟩
  fails := by
    intro fuel fault rest ends
    obtain ⟨calls, -, goesOn, answered, rfl⟩ := run_error_iff.1 ends
    refine ⟨calls, goesOn, answered, rfl, ?_⟩
    rw [after_succ, (next_fails (Intact.refl _) answered).2.intact.output]
    exact output_after goesOn
  mixed := runAnswers_after_iff

/-- Runs agree with steps, for every state of a machine. In the states that calls of `step` and
`run` lead to from a loaded program, in any order, a machine is halted when HLT has been executed
on the way, and ended when the instruction pointer has left the program. -/
theorem runs_agree_with_steps :
    (∀ machine : Machine, machine.RunsBySteps) ∧
    ∀ (executable : Executable) (input : List UInt8) (config : Config) (origins : List Machine)
      (machine : Machine), Calls (load executable input config) origins machine →
        (machine.status = .halted ↔ ∃ origin ∈ origins, origin.Halts) ∧
        (machine.status = .ended ↔ ∃ origin ∈ origins, origin.Leaves) ∧
        (machine.Leaves ↔
          machine.status = .running ∧ machine.programLength ≤ machine.ip) := by
  refine ⟨runsBySteps, ?_⟩
  intro executable input config origins machine made
  refine ⟨?_, ?_, ?_⟩
  · rw [halted_of_calls made]
    simp [load]
  · rw [ended_of_calls made]
    simp [load]
  · exact leaves_iff (holdsProgram_of_calls (holdsProgram_load executable input config) made)

/-- A step that sends a byte, a run that halts and another step: the byte is reported once, and the
machine stays halted. -/
theorem runs_agree_with_steps_halt :
    ∃ origins machine,
      Calls (load ⟨0, [.command 15 [0], .command 22 []]⟩ [] {}) origins machine ∧
      origins.length = 3 ∧ machine.path.output = #[] ∧
      (machine.status = .halted ↔ ∃ origin ∈ origins, origin.Halts) := by
  let start := load ⟨0, [.command 15 [0], .command 22 []]⟩ [] {}
  let left := (start.next.after 1).drain
  have halts : start.next.Halts :=
    (halted_next_iff.1 (by decide +kernel)).resolve_left (by decide +kernel)
  have answered : start.next.answer = .ok false := (next_of_halts halts).1
  have ends : start.next.run 1 = some (.ok (start.next.after 1).report left) :=
    run_ok_iff.2 ⟨0, Nat.one_pos, goesOn_zero _, answered, rfl, rfl⟩
  have made : Calls start [start, start.next, left] left.next :=
    ((Calls.none.step).run (goesOn_zero _) ends).step
  have drained : left.next.path.output = #[] := by
    decide +kernel
  exact ⟨_, _, made, rfl, drained, (runs_agree_with_steps.2 _ _ _ _ _ made).1⟩

end TickMachine.Machine
