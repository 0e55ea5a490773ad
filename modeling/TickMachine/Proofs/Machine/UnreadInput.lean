import TickMachine.Proofs.Machine.Surroundings

/-! # Input that has not been read

A machine looks at its input only where an instruction takes the first byte of it, and it notices
the end of its input only by a fault. So a program that does not meet this fault makes the same
steps, and the same run, whatever follows the input that it has read. -/

namespace TickMachine.Machine

/-- The machine with more bytes behind its input. -/
def fed (more : List UInt8) (machine : Machine) : Machine :=
  { machine with path := { machine.path with input := machine.path.input ++ more } }

/-- Bytes added behind the input. -/
def feeding (more : List UInt8) : Change := ⟨id, (· ++ more), id⟩

variable {machine : Machine} {more : List UInt8} {fuel : Nat}

theorem load_append (executable : Executable) (input more : List UInt8) (config : Config) :
    load executable (input ++ more) config =
      (feeding more).machine (load executable input config) := rfl

/-- A step that is not stopped by the end of the input does not look behind it. -/
theorem sparesStep_feeding (more : List UInt8) (fits : machine.answer ≠ .error .inputExhausted) :
    (feeding more).SparesStep machine := by
  refine ⟨rfl, rfl, ?_⟩
  intro instruction performs
  cases instruction with
  | receive target =>
    cases input : machine.path.input with
    | nil =>
      have failed : step machine = .error .inputExhausted machine := by
        rw [step_of_performs performs, execute_receive, input]
      exact absurd (answer_of_error failed).1 fits
    | cons byte bytes => simp [Change.Spares, feeding, input]
  | load target address => exact Change.spares_load rfl target address
  | store source address => exact Change.spares_store rfl source address
  | nop | halt | arithmetic | loadImmediate | send | branch => trivial

/-- A run that is not stopped by the end of the input ends in the same way on every longer input. -/
theorem run_feeding {outcome : Outcome} (ends : machine.run fuel = some outcome)
    (fits : outcome.answer ≠ .error .inputExhausted) :
    ((feeding more).machine machine).run fuel = some ((feeding more).result outcome) := by
  refine Change.run_machine ends fun call only => sparesStep_feeding more fun exhausted => ?_
  exact fits (only .inputExhausted exhausted)

/-- A run depends only on the input that it has consumed. As long as no step meets the end of the
input, the steps on a longer input answer the same and leave the same machine, with the additional
bytes behind the input that is left. So does a run, whether it ends with a report or with another
fault. -/
theorem unread_input_does_not_matter (executable : Executable) (config : Config)
    (input more : List UInt8) :
    (∀ calls, (∀ call < calls,
        ((load executable input config).after call).answer ≠ .error .inputExhausted) →
      (∀ call < calls, ((load executable (input ++ more) config).after call).answer =
        ((load executable input config).after call).answer) ∧
      (load executable (input ++ more) config).after calls =
        ((load executable input config).after calls).fed more) ∧
    (∀ fuel report rest, (load executable input config).run fuel = some (.ok report rest) →
      (load executable (input ++ more) config).run fuel = some (.ok report (rest.fed more))) ∧
    ∀ fuel fault rest, fault ≠ .inputExhausted →
      (load executable input config).run fuel = some (.error fault rest) →
      (load executable (input ++ more) config).run fuel =
        some (.error fault (rest.fed more)) := by
  rw [load_append]
  refine ⟨?_, ?_, ?_⟩
  · intro calls fits
    have spares : ∀ call < calls,
        (feeding more).SparesStep ((load executable input config).after call) :=
      fun call below => sparesStep_feeding more (fits call below)
    exact ⟨fun call below => Change.answer_after spares below, Change.after_machine spares⟩
  · intro fuel report rest ends
    exact run_feeding ends nofun
  · intro fuel fault rest other ends
    exact run_feeding ends fun exhausted => other (Except.error.inj exhausted)

/-- A program that takes a byte and sends it leaves what follows the byte. -/
theorem unread_input_does_not_matter_echo :
    let echo : Executable := ⟨0, [.command 14 [0], .command 15 [0], .command 22 []]⟩
    ((load echo [7, 9] {}).after 2).answer = ((load echo [7] {}).after 2).answer ∧
      (load echo [7, 9] {}).after 3 = ((load echo [7] {}).after 3).fed [9] ∧
      ∃ report rest, report.output = [7] ∧ rest.path.input = [] ∧
        (load echo [7] {}).run (2 + 1) = some (.ok report rest) ∧
        (load echo [7, 9] {}).run (2 + 1) = some (.ok report (rest.fed [9])) := by
  intro echo
  have goesOn : (load echo [7] {}).GoesOn 2 := by
    rw [← run_eq_none_iff, ← Option.isNone_iff_eq_none]
    decide +kernel
  have halts : ((load echo [7] {}).after 2).Halts :=
    (halted_next_iff.1 (by decide +kernel)).resolve_left (by decide +kernel)
  have stops : ((load echo [7] {}).after 2).answer = .ok false := (next_of_halts halts).1
  have fits : ∀ call < 3, ((load echo [7] {}).after call).answer ≠ .error .inputExhausted := by
    intro call below
    rcases Nat.lt_succ_iff_lt_or_eq.1 below with earlier | rfl
    · rw [goesOn call earlier]
      exact nofun
    · rw [stops]
      exact nofun
  have ends : (load echo [7] {}).run (2 + 1) = some (.ok ((load echo [7] {}).after 2).next.report
      ((load echo [7] {}).after 2).next.drain) :=
    (run_of_goesOn goesOn 1).trans (run_of_false stops 0)
  have sent : ((load echo [7] {}).after 2).next.report.output = [7] := by decide +kernel
  have read : ((load echo [7] {}).after 2).next.drain.path.input = [] := by decide +kernel
  obtain ⟨steps, reports, -⟩ := unread_input_does_not_matter echo {} [7] [9]
  obtain ⟨answers, last⟩ := steps 3 fits
  exact ⟨answers 2 (by decide), last, ((load echo [7] {}).after 2).next.report,
    ((load echo [7] {}).after 2).next.drain, sent, read, ends, reports (2 + 1) _ _ ends⟩

end TickMachine.Machine
