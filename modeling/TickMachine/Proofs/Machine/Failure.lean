import TickMachine.Proofs.Machine.StepCases

/-! # Failed steps

A step that fails leaves behind what it did before it failed: latches of the data path and at most
one tick. Nothing of that is looked at when a step is fetched, decoded, checked and carried out, so
the next step fails in the same way. -/

namespace TickMachine

namespace Machine

variable {machine other last : Machine} {fault : Fault}

/-! ## Failures repeat -/

theorem dispatch_fails {word : Word} (intact : Intact machine other)
    (failed : dispatch word machine = .error fault last) :
    ∃ left, dispatch word other = .error fault left ∧ FailedStep other left := by
  rw [dispatch_eq] at failed ⊢
  rw [intact.ip]
  cases decode : word.decode machine.ip with
  | error found =>
    rw [decode] at failed
    cases failed
    exact ⟨other, rfl, FailedStep.refl other⟩
  | ok decoded =>
    simp only [decode, intact.refusal?_eq] at failed ⊢
    cases refusal : machine.refusal? decoded.op with
    | some found =>
      rw [refusal] at failed
      cases failed
      exact ⟨other, rfl, FailedStep.refl other⟩
    | none =>
      simp only [refusal] at failed ⊢
      cases named : decoded.instruction with
      | error found =>
        rw [named] at failed
        cases failed
        exact ⟨other, rfl, FailedStep.refl other⟩
      | ok instruction =>
        rw [named] at failed
        exact execute_fails (Decoded.carriesOut_instruction named) intact failed

/-- A step that fails on one machine fails in the same way on a machine that differs in the latches
and the ticks only. -/
theorem step_fails (intact : Intact machine other) (failed : step machine = .error fault last) :
    ∃ left, step other = .error fault left ∧ FailedStep other left := by
  by_cases running : machine.status = .running
  · rw [step_of_running machine running] at failed
    rw [step_of_running other (intact.status.trans running), intact.fetch?_eq]
    cases fetched : machine.fetch? with
    | none =>
      rw [fetched] at failed
      cases failed
    | some word =>
      rw [fetched] at failed
      exact dispatch_fails intact failed
  · rw [step_of_stopped machine running] at failed
    cases failed

theorem next_fails (intact : Intact machine other) (failed : machine.answer = .error fault) :
    other.answer = .error fault ∧ FailedStep other other.next := by
  obtain ⟨left, again, frame⟩ := step_fails intact (step_of_error failed)
  obtain ⟨answered, rfl⟩ := answer_of_error again
  exact ⟨answered, frame⟩

theorem running_of_fails (failed : machine.answer = .error fault) : machine.status = .running := by
  by_cases running : machine.status = .running
  · exact running
  · have rests := step_of_stopped machine running
    rw [step_of_error failed] at rests
    cases rests

/-- Calls of `step` after a failure fail in the same way. -/
theorem after_fails (failed : machine.answer = .error fault) (calls : Nat) :
    (machine.after calls).answer = .error fault ∧ Intact machine (machine.after calls) := by
  induction calls with
  | zero => exact ⟨failed, Intact.refl machine⟩
  | succ calls ih =>
    obtain ⟨answered, intact⟩ := ih
    have last : FailedStep (machine.after calls) (machine.after calls).next :=
      (next_fails (Intact.refl _) answered).2
    have kept := intact.trans last.intact
    rw [after_succ]
    exact ⟨(next_fails kept failed).1, kept⟩

end Machine

/-! ## Signals -/

namespace DataPath

variable {path left : DataPath} {fault : Fault}

theorem latchRegister_fails {target : Register} {source : Source}
    (failed : latchRegister target source path = .error fault left) : left = path := by
  unfold latchRegister at failed
  cases source with
  | alu => cases failed
  | immediate value => cases failed
  | input =>
    simp only at failed
    split at failed
    · cases failed
      rfl
    · cases failed
  | memory =>
    simp only at failed
    split at failed
    · cases failed
      rfl
    · cases failed

theorem storeRegister_fails {source : Register}
    (failed : storeRegister source path = .error fault left) : left = path := by
  unfold storeRegister at failed
  split at failed
  · cases failed
    rfl
  · cases failed

end DataPath

/-! ## Failures are permanent -/

namespace Machine

/-- A step fails on a running machine only, it leaves everything but the latches of the data path
and the ticks as it was, and every later step fails in the same way. A signal that fails leaves the
whole data path as it was. -/
theorem failures_are_permanent :
    (∀ (machine : Machine) (fault : Fault), machine.answer = .error fault →
      machine.status = .running ∧
      ∀ calls, (machine.after calls).answer = .error fault ∧
        Intact machine (machine.after calls) ∧
        FailedStep (machine.after calls) (machine.after (calls + 1))) ∧
    (∀ (target : Register) (source : Source) (path left : DataPath) (fault : Fault),
      DataPath.latchRegister target source path = .error fault left → left = path) ∧
    (∀ (source : Register) (path left : DataPath) (fault : Fault),
      DataPath.storeRegister source path = .error fault left → left = path) := by
  refine ⟨?_, ?_, ?_⟩
  · intro machine fault failed
    refine ⟨running_of_fails failed, ?_⟩
    intro calls
    obtain ⟨answered, intact⟩ := after_fails failed calls
    refine ⟨answered, intact, ?_⟩
    rw [after_succ]
    exact (next_fails (Intact.refl _) answered).2
  · intro target source path left fault failed
    exact DataPath.latchRegister_fails failed
  · intro source path left fault failed
    exact DataPath.storeRegister_fails failed

/-- A branch to a negative address changes the truth flag and spends a tick each time it fails, and
fails again. -/
theorem failures_are_permanent_branch :
    let machine := load ⟨0, [.command 16 [7, 7, -3]]⟩ [] {}
    (machine.answer = .error (.invalidBranchTarget (-3)) ∧ machine.path.truth = false ∧
      (machine.after 3).path.truth = true ∧ (machine.after 3).ticks = 3 ∧
      (machine.after 3).answer = .error (.invalidBranchTarget (-3)) ∧
      Intact machine (machine.after 3) ∧
      FailedStep (machine.after 3) (machine.after 4)) ∧
    (∃ left, DataPath.latchRegister .r0 .input .initial = .error .inputExhausted left ∧
      left = .initial) ∧
    ∃ left, DataPath.storeRegister .r0 .initial = .error (.memoryOutOfBounds 0) left ∧
      left = .initial := by
  have failed : (load ⟨0, [.command 16 [7, 7, -3]]⟩ [] {}).answer =
      .error (.invalidBranchTarget (-3)) := rfl
  have exhausted : DataPath.latchRegister .r0 .input .initial = .error .inputExhausted .initial :=
    rfl
  have outside :
      DataPath.storeRegister .r0 .initial = .error (.memoryOutOfBounds 0) .initial := rfl
  obtain ⟨machines, latches, stores⟩ := failures_are_permanent
  exact ⟨⟨failed, rfl, rfl, rfl, (machines _ _ failed).2 3⟩,
    ⟨_, exhausted, latches _ _ _ _ _ exhausted⟩, _, outside, stores _ _ _ _ outside⟩

end Machine

end TickMachine
