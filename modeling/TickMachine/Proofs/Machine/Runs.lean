import TickMachine.Proofs.Machine.StepCases

/-! # Runs as repeated steps

A run makes the calls of `step` that go on and ends with the first one that does not. So it ends
within some fuel exactly when there is such a call, and more fuel does not change its outcome. -/

namespace TickMachine.Machine

/-- The first calls of `step` answer that the machine goes on. -/
def GoesOn (machine : Machine) (calls : Nat) : Prop :=
  ∀ call < calls, (machine.after call).answer = .ok true

variable {machine : Machine} {calls fuel : Nat} {outcome : Outcome}

theorem goesOn_zero (machine : Machine) : machine.GoesOn 0 :=
  fun call below => absurd below (Nat.not_lt_zero call)

theorem goesOn_succ_iff :
    machine.GoesOn (calls + 1) ↔ machine.answer = .ok true ∧ machine.next.GoesOn calls := by
  constructor
  · intro goesOn
    refine ⟨goesOn 0 (Nat.succ_pos calls), ?_⟩
    intro call below
    exact goesOn (call + 1) (Nat.succ_lt_succ below)
  · rintro ⟨first, others⟩ call below
    cases call with
    | zero => exact first
    | succ call => exact others call (Nat.lt_of_succ_lt_succ below)

theorem GoesOn.of_le {fewer : Nat} (goesOn : machine.GoesOn calls) (le : fewer ≤ calls) :
    machine.GoesOn fewer :=
  fun call below => goesOn call (Nat.lt_of_lt_of_le below le)

/-! ## One step of a run -/

theorem run_of_true (answered : machine.answer = .ok true) (fuel : Nat) :
    run (fuel + 1) machine = run fuel machine.next := by
  rw [run, step_of_ok answered]

theorem run_of_false (answered : machine.answer = .ok false) (fuel : Nat) :
    run (fuel + 1) machine = some machine.next.finish := by
  rw [run, step_of_ok answered]

theorem run_of_error {fault : Fault} (answered : machine.answer = .error fault) (fuel : Nat) :
    run (fuel + 1) machine = some (.error fault machine.next) := by
  rw [run, step_of_error answered]

/-- A run ends with its first call of `step` unless that call goes on. -/
theorem run_one (outcome : Outcome) :
    run 1 machine = some outcome ↔
      machine.answer = .ok false ∧ outcome = machine.next.finish ∨
        ∃ fault, machine.answer = .error fault ∧ outcome = .error fault machine.next := by
  cases answered : machine.answer with
  | error fault =>
    rw [run_of_error answered]
    constructor
    · intro ends
      cases ends
      exact .inr ⟨fault, rfl, rfl⟩
    · rintro (⟨other, -⟩ | ⟨found, same, rfl⟩)
      · cases other
      · cases same
        rfl
  | ok goesOn =>
    cases goesOn with
    | true =>
      rw [run_of_true answered]
      constructor
      · intro ends
        cases ends
      · rintro (⟨other, -⟩ | ⟨found, other, -⟩) <;> cases other
    | false =>
      rw [run_of_false answered]
      constructor
      · intro ends
        cases ends
        exact .inl ⟨rfl, rfl⟩
      · rintro (⟨-, rfl⟩ | ⟨found, other, -⟩)
        · rfl
        · cases other

theorem run_succ_of_run_one (ends : run 1 machine = some outcome) (fuel : Nat) :
    run (fuel + 1) machine = some outcome := by
  rcases (run_one outcome).1 ends with ⟨answered, rfl⟩ | ⟨fault, answered, rfl⟩
  · exact run_of_false answered fuel
  · exact run_of_error answered fuel

/-! ## Whole runs -/

theorem run_of_goesOn (goesOn : machine.GoesOn calls) (fuel : Nat) :
    run (calls + fuel) machine = run fuel (machine.after calls) := by
  induction calls generalizing machine with
  | zero => rw [Nat.zero_add, after]
  | succ calls ih =>
    obtain ⟨answered, others⟩ := goesOn_succ_iff.1 goesOn
    rw [Nat.succ_add, run_of_true answered, ih others, after]

/-- A run has no outcome as long as every call of `step` goes on. -/
theorem run_eq_none_iff : run fuel machine = none ↔ machine.GoesOn fuel := by
  constructor
  · intro unfinished
    induction fuel generalizing machine with
    | zero => exact goesOn_zero machine
    | succ fuel ih =>
      rw [goesOn_succ_iff]
      cases answered : machine.answer with
      | error fault =>
        rw [run_of_error answered] at unfinished
        cases unfinished
      | ok goesOn =>
        cases goesOn with
        | true =>
          rw [run_of_true answered] at unfinished
          exact ⟨rfl, ih unfinished⟩
        | false =>
          rw [run_of_false answered] at unfinished
          cases unfinished
  · intro goesOn
    exact run_of_goesOn goesOn 0

/-- A run ends with the first call of `step` that does not go on. -/
theorem run_eq_some_iff :
    run fuel machine = some outcome ↔
      ∃ calls < fuel, machine.GoesOn calls ∧ run 1 (machine.after calls) = some outcome := by
  constructor
  · intro ends
    induction fuel generalizing machine with
    | zero => cases ends
    | succ fuel ih =>
      by_cases answered : machine.answer = .ok true
      · rw [run_of_true answered] at ends
        obtain ⟨calls, below, goesOn, last⟩ := ih ends
        exact ⟨calls + 1, Nat.succ_lt_succ below, goesOn_succ_iff.2 ⟨answered, goesOn⟩, last⟩
      · refine ⟨0, Nat.succ_pos fuel, goesOn_zero machine, ?_⟩
        cases once : run 1 machine with
        | none => exact absurd (run_eq_none_iff.1 once 0 Nat.one_pos) answered
        | some other => rw [after, once, ← run_succ_of_run_one once fuel, ends]
  · rintro ⟨calls, below, goesOn, last⟩
    obtain ⟨more, rfl⟩ := Nat.exists_eq_add_of_lt below
    rw [Nat.add_assoc, run_of_goesOn goesOn]
    exact run_succ_of_run_one last more

/-- More fuel does not change an outcome. -/
theorem run_of_le {less : Nat} (ends : run less machine = some outcome) (le : less ≤ fuel) :
    run fuel machine = some outcome := by
  obtain ⟨calls, below, goesOn, last⟩ := run_eq_some_iff.1 ends
  exact run_eq_some_iff.2 ⟨calls, Nat.lt_of_lt_of_le below le, goesOn, last⟩

theorem run_unique {other : Nat} {outcome' : Outcome} (ends : run fuel machine = some outcome)
    (ends' : run other machine = some outcome') : outcome = outcome' := by
  have first := run_of_le ends (Nat.le_max_left fuel other)
  have second := run_of_le ends' (Nat.le_max_right fuel other)
  rw [first] at second
  exact Option.some.inj second

end TickMachine.Machine
