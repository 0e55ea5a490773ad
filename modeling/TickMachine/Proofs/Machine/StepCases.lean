import TickMachine.Proofs.Machine.History
import TickMachine.Proofs.Machine.Instructions

/-! # What a step comes to

A step leaves a stopped machine alone, stops the machine, refuses the word that it fetched, or
executes an instruction. Each way is named here once, with what it depends on and what it changes,
so that a property of steps is proved way by way and the sequences of the control unit stay
closed. -/

namespace TickMachine.Machine

/-! ## Answers -/

section

variable {machine last : Machine} {fault : Fault} {goesOn : Bool}

theorem answer_of_ok (done : step machine = .ok goesOn last) :
    machine.answer = .ok goesOn ∧ machine.next = last := by
  unfold answer next
  rw [done]
  exact ⟨rfl, rfl⟩

theorem answer_of_error (failed : step machine = .error fault last) :
    machine.answer = .error fault ∧ machine.next = last := by
  unfold answer next
  rw [failed]
  exact ⟨rfl, rfl⟩

theorem step_of_ok (answered : machine.answer = .ok goesOn) :
    step machine = .ok goesOn machine.next := by
  cases done : step machine with
  | ok found last =>
    obtain ⟨found, rfl⟩ := answer_of_ok done
    rw [found] at answered
    cases answered
    rfl
  | error fault last =>
    rw [(answer_of_error done).1] at answered
    cases answered

theorem step_of_error (answered : machine.answer = .error fault) :
    step machine = .error fault machine.next := by
  cases done : step machine with
  | ok goesOn last =>
    rw [(answer_of_ok done).1] at answered
    cases answered
  | error found last =>
    obtain ⟨found, rfl⟩ := answer_of_error done
    rw [found] at answered
    cases answered
    rfl

end

/-! ## The ways of a step -/

/-- The next step fetches a word and decodes it. -/
def Decodes (machine : Machine) (decoded : Decoded) : Prop :=
  machine.status = .running ∧
    ∃ word, machine.fetch? = some word ∧ word.decode machine.ip = .ok decoded

/-- The next step executes HLT. -/
def Halts (machine : Machine) : Prop := ∃ decoded, machine.Decodes decoded ∧ decoded.op = .hlt

/-- The next step finds no word to execute, because the instruction pointer has left the program. -/
def Leaves (machine : Machine) : Prop := machine.status = .running ∧ machine.fetch? = none

/-- The next step executes an instruction other than HLT. -/
def Performs (machine : Machine) (instruction : Instruction) : Prop :=
  ∃ decoded, machine.Decodes decoded ∧ decoded.op ≠ .hlt ∧
    machine.refusal? decoded.op = none ∧ decoded.instruction = .ok instruction

/-- The ways of a step, each with its answer and with the machine that it leaves. -/
inductive Stepped (machine : Machine) : Prop
  | rests (stopped : machine.status ≠ .running) (answer : machine.answer = .ok false)
    (next : machine.next = machine)
  | leaves (leaves : machine.Leaves) (answer : machine.answer = .ok false)
    (next : machine.next = { machine with status := .ended })
  | halts (halts : machine.Halts) (answer : machine.answer = .ok false)
    (next : machine.next = { machine with status := .halted })
  | undecoded {word : Word} {fault : Fault} (running : machine.status = .running)
    (fetched : machine.fetch? = some word) (refused : word.decode machine.ip = .error fault)
    (answer : machine.answer = .error fault) (next : machine.next = machine)
  | exceeds {decoded : Decoded} {fault : Fault} (decodes : machine.Decodes decoded)
    (refused : machine.refusal? decoded.op = some fault)
    (answer : machine.answer = .error fault) (next : machine.next = machine)
  | misnamed {decoded : Decoded} {fault : Fault} (decodes : machine.Decodes decoded)
    (refused : decoded.instruction = .error fault)
    (answer : machine.answer = .error fault) (next : machine.next = machine)
  | completes {instruction : Instruction} (performs : machine.Performs instruction)
    (answer : machine.answer = .ok true)
    (completes : Completes (machine.sentBy instruction) machine machine.next)
  | fails {instruction : Instruction} {fault : Fault} (performs : machine.Performs instruction)
    (failed : execute instruction machine = .error fault machine.next)
    (answer : machine.answer = .error fault) (left : FailedStep machine machine.next)

variable {machine : Machine}

theorem Performs.running {instruction : Instruction} (performs : machine.Performs instruction) :
    machine.status = .running := by
  obtain ⟨decoded, decodes, -⟩ := performs
  exact decodes.1

theorem Performs.ne_halt {instruction : Instruction} (performs : machine.Performs instruction) :
    instruction ≠ .halt := by
  obtain ⟨decoded, -, other, -, found⟩ := performs
  rintro rfl
  have carries := Decoded.carriesOut_instruction found
  generalize decoded.op = op at carries other
  cases carries
  exact other rfl

/-- An instruction other than HLT is completed or fails. -/
theorem stepped_of_performs {instruction : Instruction} (performs : machine.Performs instruction)
    (done : step machine = execute instruction machine) : machine.Stepped := by
  cases executed : execute instruction machine with
  | ok goesOn last =>
    obtain ⟨rfl, completes⟩ := completes_of_execute performs.ne_halt executed
    obtain ⟨answer, rfl⟩ := answer_of_ok (done.trans executed)
    exact .completes performs answer completes
  | error fault last =>
    have ⟨_, _, _, _, found⟩ := performs
    have carries := Decoded.carriesOut_instruction found
    obtain ⟨left, again, kept⟩ := execute_fails carries (Intact.refl machine) executed
    rw [executed] at again
    cases again
    obtain ⟨answer, rfl⟩ := answer_of_error (done.trans executed)
    exact .fails performs executed answer kept

/-- A fetched word is checked before it is executed. -/
theorem stepped_of_fetched {word : Word} (running : machine.status = .running)
    (fetched : machine.fetch? = some word) (done : step machine = dispatch word machine) :
    machine.Stepped := by
  rw [dispatch_eq] at done
  cases decode : word.decode machine.ip with
  | error fault =>
    rw [decode] at done
    obtain ⟨answer, next⟩ := answer_of_error done
    exact .undecoded running fetched decode answer next
  | ok decoded =>
    have decodes : machine.Decodes decoded := ⟨running, word, fetched, decode⟩
    simp only [decode] at done
    cases refusal : machine.refusal? decoded.op with
    | some fault =>
      rw [refusal] at done
      obtain ⟨answer, next⟩ := answer_of_error done
      exact .exceeds decodes refusal answer next
    | none =>
      simp only [refusal] at done
      cases found : decoded.instruction with
      | error fault =>
        rw [found] at done
        obtain ⟨answer, next⟩ := answer_of_error done
        exact .misnamed decodes found answer next
      | ok instruction =>
        simp only [found] at done
        by_cases hlt : decoded.op = .hlt
        · rw [Decoded.instruction_of_hlt hlt] at found
          cases found
          obtain ⟨answer, next⟩ := answer_of_ok done
          exact .halts ⟨decoded, decodes, hlt⟩ answer next
        · exact stepped_of_performs ⟨decoded, decodes, hlt, refusal, found⟩ done

theorem stepped (machine : Machine) : machine.Stepped := by
  by_cases running : machine.status = .running
  · have done := step_of_running machine running
    cases fetched : machine.fetch? with
    | none =>
      rw [fetched] at done
      obtain ⟨answer, next⟩ := answer_of_ok done
      exact .leaves ⟨running, fetched⟩ answer next
    | some word =>
      rw [fetched] at done
      exact stepped_of_fetched running fetched done
  · obtain ⟨answer, next⟩ := answer_of_ok (step_of_stopped machine running)
    exact .rests running answer next

/-- A step that goes on has completed an instruction. -/
theorem completes_of_true (answered : machine.answer = .ok true) :
    ∃ instruction, machine.Performs instruction ∧
      Completes (machine.sentBy instruction) machine machine.next := by
  cases stepped machine with
  | completes performs answer completes => exact ⟨_, performs, completes⟩
  | rests stopped answer => simp [answer] at answered
  | leaves leaves answer => simp [answer] at answered
  | halts halts answer => simp [answer] at answered
  | undecoded running fetched refused answer => simp [answer] at answered
  | exceeds decodes refused answer => simp [answer] at answered
  | misnamed decodes refused answer => simp [answer] at answered
  | fails performs failed answer => simp [answer] at answered

/-- A step that does not go on finds a stopped machine or stops it. -/
theorem stops_of_false (answered : machine.answer = .ok false) :
    (machine.status ≠ .running ∧ machine.next = machine) ∨
    (machine.Leaves ∧ machine.next = { machine with status := .ended }) ∨
    (machine.Halts ∧ machine.next = { machine with status := .halted }) := by
  cases stepped machine with
  | rests stopped answer next => exact .inl ⟨stopped, next⟩
  | leaves leaves answer next => exact .inr (.inl ⟨leaves, next⟩)
  | halts halts answer next => exact .inr (.inr ⟨halts, next⟩)
  | undecoded running fetched refused answer => simp [answer] at answered
  | exceeds decodes refused answer => simp [answer] at answered
  | misnamed decodes refused answer => simp [answer] at answered
  | completes performs answer => simp [answer] at answered
  | fails performs failed answer => simp [answer] at answered

/-- A word is decoded in one way. -/
theorem Decodes.unique {first second : Decoded} (h : machine.Decodes first)
    (h' : machine.Decodes second) : first = second := by
  obtain ⟨-, word, fetched, decode⟩ := h
  obtain ⟨-, word', fetched', decode'⟩ := h'
  rw [fetched] at fetched'
  cases fetched'
  rw [decode] at decode'
  cases decode'
  rfl

/-! ## How a machine stops -/

theorem refusal?_hlt (machine : Machine) : machine.refusal? .hlt = none := by
  unfold refusal?
  cases machine.config.stepLimit <;> simp

theorem next_of_leaves (leaves : machine.Leaves) :
    machine.answer = .ok false ∧ machine.next = { machine with status := .ended } := by
  obtain ⟨running, fetched⟩ := leaves
  have done := step_of_running machine running
  rw [fetched] at done
  exact answer_of_ok done

theorem next_of_halts (halts : machine.Halts) :
    machine.answer = .ok false ∧ machine.next = { machine with status := .halted } := by
  obtain ⟨decoded, ⟨running, word, fetched, decode⟩, hlt⟩ := halts
  have done := step_of_running machine running
  rw [fetched] at done
  simp only [dispatch_eq, decode] at done
  rw [hlt, refusal?_hlt] at done
  simp only [Decoded.instruction_of_hlt hlt] at done
  exact answer_of_ok done

theorem next_of_stopped (stopped : machine.status ≠ .running) :
    machine.answer = .ok false ∧ machine.next = machine :=
  answer_of_ok (step_of_stopped machine stopped)

/-- A step that neither leaves the program nor executes HLT does not stop a machine. -/
theorem status_next (stays : ¬machine.Leaves) (goes : ¬machine.Halts) :
    machine.next.status = machine.status := by
  cases stepped machine with
  | rests stopped answer next => rw [next]
  | leaves leaves => exact absurd leaves stays
  | halts halts => exact absurd halts goes
  | undecoded running fetched refused answer next => rw [next]
  | exceeds decodes refused answer next => rw [next]
  | misnamed decodes refused answer next => rw [next]
  | completes performs answer completes => exact completes.status
  | fails performs failed answer left => exact left.intact.status

/-- A machine becomes halted by executing HLT and in no other way. -/
theorem halted_next_iff :
    machine.next.status = .halted ↔ machine.status = .halted ∨ machine.Halts := by
  constructor
  · intro halted
    by_cases halts : machine.Halts
    · exact .inr halts
    · by_cases leaves : machine.Leaves
      · rw [(next_of_leaves leaves).2] at halted
        cases halted
      · exact .inl (status_next leaves halts ▸ halted)
  · rintro (halted | halts)
    · rw [(next_of_stopped (by simp [halted])).2]
      exact halted
    · rw [(next_of_halts halts).2]

/-- A machine becomes ended by leaving its program and in no other way. -/
theorem ended_next_iff :
    machine.next.status = .ended ↔ machine.status = .ended ∨ machine.Leaves := by
  constructor
  · intro ended
    by_cases leaves : machine.Leaves
    · exact .inr leaves
    · by_cases halts : machine.Halts
      · rw [(next_of_halts halts).2] at ended
        cases ended
      · exact .inl (status_next leaves halts ▸ ended)
  · rintro (ended | leaves)
    · rw [(next_of_stopped (by simp [ended])).2]
      exact ended
    · rw [(next_of_leaves leaves).2]

/-- A step that does not go on has stopped the machine. -/
theorem stopped_of_false (answered : machine.answer = .ok false) :
    machine.next.status ≠ .running := by
  rcases stops_of_false answered with ⟨stopped, next⟩ | ⟨-, next⟩ | ⟨-, next⟩
  · rwa [next]
  · simp [next]
  · simp [next]

/-! ## What no step changes -/

/-- The second machine has the limits, the program and as much memory as the first one. -/
structure Keeps (before after : Machine) : Prop where
  config : after.config = before.config
  programLength : after.programLength = before.programLength
  size : after.path.memory.size = before.path.memory.size

theorem Keeps.refl (machine : Machine) : Keeps machine machine := ⟨rfl, rfl, rfl⟩

theorem Keeps.trans {first second third : Machine} (h : Keeps first second)
    (h' : Keeps second third) : Keeps first third :=
  ⟨h'.config.trans h.config, h'.programLength.trans h.programLength, h'.size.trans h.size⟩

theorem keeps_next (machine : Machine) : Keeps machine machine.next := by
  cases stepped machine with
  | rests stopped answer next =>
    rw [next]
    exact Keeps.refl machine
  | leaves leaves answer next =>
    rw [next]
    exact ⟨rfl, rfl, rfl⟩
  | halts halts answer next =>
    rw [next]
    exact ⟨rfl, rfl, rfl⟩
  | undecoded running fetched refused answer next =>
    rw [next]
    exact Keeps.refl machine
  | exceeds decodes refused answer next =>
    rw [next]
    exact Keeps.refl machine
  | misnamed decodes refused answer next =>
    rw [next]
    exact Keeps.refl machine
  | completes performs answer completes =>
    exact ⟨completes.config, completes.programLength, completes.size⟩
  | fails performs failed answer left =>
    obtain ⟨intact, -⟩ := left
    exact ⟨intact.config, intact.programLength, by rw [intact.memory]⟩

theorem keeps_after (machine : Machine) (calls : Nat) : Keeps machine (machine.after calls) := by
  induction calls with
  | zero => exact Keeps.refl machine
  | succ calls ih =>
    rw [after_succ]
    exact ih.trans (keeps_next (machine.after calls))

end TickMachine.Machine
