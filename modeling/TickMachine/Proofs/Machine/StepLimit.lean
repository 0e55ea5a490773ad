import TickMachine.Proofs.Machine.Runs

/-! # The step limit

The step limit is looked at between decoding and execution, it lets HLT pass, and it has no part in
what an instruction does. So a machine with a limit makes the steps of the machine without one as
long as fewer instructions have been executed, and its run is cut in front of the first instruction
that would be one too many. -/

namespace TickMachine

/-- The faults of a word that cannot be decoded. They come before the step limit. -/
def Fault.undecoded : Fault → Bool
  | .unknownOpcode _ _ | .argumentCount _ _ _ _ => true
  | _ => false

theorem Word.undecoded_of_decode {address : Nat} {word : Word} {fault : Fault}
    (failed : word.decode address = .error fault) : fault.undecoded = true := by
  unfold Word.decode at failed
  split at failed
  · cases failed
    rfl
  · split at failed
    · cases failed
    · cases failed
      rfl

namespace Machine

variable {machine last : Machine} {limit calls : Nat} {fault : Fault} {outcome : Outcome}

/-- The next step is counted: it decodes an operation other than HLT. -/
def Charged (machine : Machine) : Prop := ∃ decoded, machine.Decodes decoded ∧ decoded.op ≠ .hlt

/-- The machine with a step limit. -/
def limited (limit : Nat) (machine : Machine) : Machine :=
  { machine with config := { machine.config with stepLimit := some limit } }

/-- The result of a control sequence with a step limit on the machine that it leaves. -/
def limitedResult {α : Type} (limit : Nat) :
    EStateM.Result Fault Machine α → EStateM.Result Fault Machine α
  | .ok answer machine => .ok answer (machine.limited limit)
  | .error fault machine => .error fault (machine.limited limit)

theorem machine_limitedResult (limit : Nat) (outcome : Outcome) :
    Outcome.machine (limitedResult limit outcome) = outcome.machine.limited limit := by
  cases outcome <;> rfl

/-! ## Steps below the limit -/

theorem execute_limited (instruction : Instruction) (limit : Nat) (machine : Machine) :
    execute instruction (machine.limited limit) =
      limitedResult limit (execute instruction machine) := by
  have path : (machine.limited limit).path = machine.path := rfl
  have register (name : Register) :
      (machine.limited limit).register name = machine.register name := rfl
  have value (argument : Argument) :
      (machine.limited limit).value argument = machine.value argument := by
    cases argument <;> rfl
  cases instruction with
  | nop | halt | loadImmediate | send => rfl
  | arithmetic op target left right =>
    simp only [execute_arithmetic, path, register, value]
    rfl
  | load target address =>
    simp only [execute_load, path, value]
    cases machine.path.memory.read (machine.value address) <;> rfl
  | store source address =>
    simp only [execute_store, path, register, value]
    cases machine.path.memory.write (machine.value address) (machine.register source) <;> rfl
  | receive target =>
    simp only [execute_receive, path]
    cases machine.path.input <;> rfl
  | branch op left right target =>
    simp only [execute_branch, path, register]
    split
    · split <;> rfl
    · rfl

/-- A limit refuses every operation but HLT once that many instructions have been executed. -/
theorem refusal?_limited (limit : Nat) (machine : Machine) (op : Op) :
    (machine.limited limit).refusal? op =
      if op ≠ .hlt ∧ limit ≤ machine.instructions then some (.stepLimitExceeded limit)
      else none := rfl

theorem refusal?_free (free : machine.config.stepLimit = none) (op : Op) :
    machine.refusal? op = none := by
  unfold refusal?
  rw [free]

theorem dispatch_limited {word : Word} (free : machine.config.stepLimit = none)
    (below : ∀ decoded, word.decode machine.ip = .ok decoded → decoded.op ≠ .hlt →
      machine.instructions < limit) :
    dispatch word (machine.limited limit) = limitedResult limit (dispatch word machine) := by
  have ip : (machine.limited limit).ip = machine.ip := rfl
  rw [dispatch_eq, dispatch_eq, ip]
  cases decode : word.decode machine.ip with
  | error fault => rfl
  | ok decoded =>
    have allowed : ¬(decoded.op ≠ .hlt ∧ limit ≤ machine.instructions) := by
      rintro ⟨other, reached⟩
      exact absurd (below decoded decode other) (Nat.not_lt.2 reached)
    simp only [refusal?_limited, refusal?_free free, if_neg allowed]
    cases decoded.instruction with
    | error fault => rfl
    | ok instruction => exact execute_limited instruction limit machine

/-- Below the limit, a step of the limited machine is the step of the machine. -/
theorem step_limited (free : machine.config.stepLimit = none)
    (below : machine.Charged → machine.instructions < limit) :
    step (machine.limited limit) = limitedResult limit (step machine) := by
  by_cases running : machine.status = .running
  · have fetch : (machine.limited limit).fetch? = machine.fetch? := rfl
    rw [step_of_running machine running, step_of_running (machine.limited limit) running, fetch]
    cases fetched : machine.fetch? with
    | none => rfl
    | some word =>
      apply dispatch_limited free
      intro decoded decode other
      exact below ⟨decoded, ⟨running, word, fetched, decode⟩, other⟩
  · rw [step_of_stopped machine running, step_of_stopped (machine.limited limit) running]
    rfl

theorem answer_limited (limit : Nat) (free : machine.config.stepLimit = none)
    (below : machine.Charged → machine.instructions < limit) :
    (machine.limited limit).answer = machine.answer ∧
      (machine.limited limit).next = machine.next.limited limit := by
  unfold answer next
  rw [step_limited free below]
  cases step machine <;> exact ⟨rfl, rfl⟩

/-! ## The step at the limit -/

/-- At the limit, a step that would be counted is refused. -/
theorem step_refused (charged : machine.Charged) (reached : limit ≤ machine.instructions) :
    step (machine.limited limit) =
      .error (.stepLimitExceeded limit) (machine.limited limit) := by
  obtain ⟨decoded, ⟨running, word, fetched, decode⟩, other⟩ := charged
  have fetch : (machine.limited limit).fetch? = some word := fetched
  have again : word.decode (machine.limited limit).ip = .ok decoded := decode
  rw [step_of_running (machine.limited limit) running, fetch]
  simp only [dispatch_eq, again, refusal?_limited, if_pos (And.intro other reached)]

theorem charged_of_true (answered : machine.answer = .ok true) : machine.Charged := by
  obtain ⟨instruction, ⟨decoded, decodes, other, -⟩, -⟩ := completes_of_true answered
  exact ⟨decoded, decodes, other⟩

theorem not_charged_of_false (answered : machine.answer = .ok false) : ¬machine.Charged := by
  rintro ⟨decoded, decodes, other⟩
  rcases stops_of_false answered with ⟨stopped, -⟩ | ⟨leaves, -⟩ | ⟨halts, -⟩
  · exact stopped decodes.1
  · obtain ⟨-, word, fetched, -⟩ := decodes
    rw [leaves.2] at fetched
    cases fetched
  · obtain ⟨found, decodes', hlt⟩ := halts
    rw [decodes.unique decodes'] at other
    exact other hlt

/-- What goes wrong in the execution of an instruction is not a matter of decoding. -/
theorem undecoded_of_execute {instruction : Instruction}
    (failed : execute instruction machine = .error fault last) : fault.undecoded = false := by
  obtain ⟨address, rfl⟩ | rfl | ⟨target, rfl⟩ := fault_of_execute failed
  · rfl
  · rfl
  · rfl

/-- Of the steps that fail without a limit, those would not be counted that find a word which cannot
be decoded. -/
theorem charged_iff_of_error (free : machine.config.stepLimit = none)
    (answered : machine.answer = .error fault) :
    machine.Charged ↔ fault.undecoded = false := by
  cases stepped machine with
  | rests stopped answer => simp [answer] at answered
  | leaves leaves answer => simp [answer] at answered
  | halts halts answer => simp [answer] at answered
  | completes performs answer => simp [answer] at answered
  | undecoded running fetched refused answer =>
    rw [answer] at answered
    cases answered
    constructor
    · rintro ⟨decoded, ⟨-, word, fetched', decode⟩, -⟩
      rw [fetched] at fetched'
      cases fetched'
      rw [refused] at decode
      cases decode
    · intro other
      rw [Word.undecoded_of_decode refused] at other
      cases other
  | exceeds decodes refused =>
    rw [refusal?_free free] at refused
    cases refused
  | misnamed decodes refused answer =>
    rw [answer] at answered
    cases answered
    obtain ⟨code, rfl⟩ := Decoded.invalidRegister_of_instruction refused
    refine iff_of_true ⟨_, decodes, ?_⟩ rfl
    -- HLT has no operands, so none of them can name a wrong register.
    intro hlt
    rw [Decoded.instruction_of_hlt hlt] at refused
    cases refused
  | fails performs failed answer =>
    rw [answer] at answered
    cases answered
    obtain ⟨decoded, decodes, other, -⟩ := performs
    exact iff_of_true ⟨decoded, decodes, other⟩ (undecoded_of_execute failed)

/-! ## What steps count -/

theorem instructions_next_of_true (answered : machine.answer = .ok true) :
    machine.next.instructions = Counter.next machine.instructions := by
  obtain ⟨instruction, -, completes⟩ := completes_of_true answered
  exact completes.instructions

/-- A step that does not go on counts no instruction. -/
theorem instructions_next_of_ne_true (answered : machine.answer ≠ .ok true) :
    machine.next.instructions = machine.instructions := by
  cases stepped machine with
  | rests stopped answer next => rw [next]
  | leaves leaves answer next => rw [next]
  | halts halts answer next => rw [next]
  | undecoded running fetched refused answer next => rw [next]
  | exceeds decodes refused answer next => rw [next]
  | misnamed decodes refused answer next => rw [next]
  | completes performs answer completes => exact absurd answer answered
  | fails performs failed answer left => exact left.intact.instructions

theorem instructions_after (unused : machine.instructions = 0) (goesOn : machine.GoesOn calls)
    (le : calls ≤ Counter.limit) : (machine.after calls).instructions = calls := by
  induction calls with
  | zero => exact unused
  | succ calls ih =>
    have before := ih (goesOn.of_le (Nat.le_succ calls)) (Nat.le_of_succ_le le)
    rw [after_succ, instructions_next_of_true (goesOn calls (Nat.lt_succ_self calls)), before]
    exact Nat.min_eq_left le

theorem instructions_of_run_one (ends : machine.run 1 = some outcome) :
    outcome.machine.instructions = machine.instructions := by
  have stays : machine.answer ≠ .ok true := by
    intro answered
    rw [run_of_true answered] at ends
    cases ends
  have counted := instructions_next_of_ne_true stays
  rcases (run_one outcome).1 ends with ⟨-, rfl⟩ | ⟨fault, -, rfl⟩
  · exact counted
  · exact counted

/-! ## Runs with a limit -/

/-- A machine without a step limit that has not executed an instruction. -/
structure Unlimited (machine : Machine) : Prop where
  free : machine.config.stepLimit = none
  unused : machine.instructions = 0

/-- The run of a machine makes a number of steps that go on, and ends with the next one. -/
def EndsAfter (machine : Machine) (calls : Nat) (outcome : Outcome) : Prop :=
  machine.GoesOn calls ∧ machine.run (calls + 1) = some outcome

theorem run_of_endsAfter (ends : machine.EndsAfter calls outcome) :
    run 1 (machine.after calls) = some outcome :=
  (run_of_goesOn ends.1 1).symm.trans ends.2

theorem answer_of_report {report : Report} {rest : Machine}
    (ends : machine.EndsAfter calls (.ok report rest)) :
    (machine.after calls).answer = .ok false := by
  rcases (run_one _).1 (run_of_endsAfter ends) with ⟨answered, -⟩ | ⟨found, -, other⟩
  · exact answered
  · cases other

theorem answer_of_fault {rest : Machine} (ends : machine.EndsAfter calls (.error fault rest)) :
    (machine.after calls).answer = .error fault := by
  rcases (run_one _).1 (run_of_endsAfter ends) with ⟨-, other⟩ | ⟨found, answered, same⟩
  · cases other
  · cases same
    exact answered

/-- A run ends after some number of steps, or it goes on for longer. -/
theorem endsAfter_or_goesOn (machine : Machine) (limit : Nat) :
    (∃ calls ≤ limit, ∃ outcome, machine.EndsAfter calls outcome) ∨
      machine.GoesOn (limit + 1) := by
  cases ends : machine.run (limit + 1) with
  | none => exact .inr (run_eq_none_iff.1 ends)
  | some outcome =>
    obtain ⟨calls, below, goesOn, last⟩ := run_eq_some_iff.1 ends
    refine .inl ⟨calls, Nat.le_of_lt_succ below, outcome, goesOn, ?_⟩
    rw [run_of_goesOn goesOn, last]

namespace Unlimited

variable (unlimited : machine.Unlimited)
include unlimited

theorem free_after (calls : Nat) : (machine.after calls).config.stepLimit = none := by
  rw [(keeps_after machine calls).config, unlimited.free]

/-- Up to the limit, the steps of the limited machine are the steps of the machine. -/
theorem after_limited (small : limit ≤ Counter.limit) (goesOn : machine.GoesOn calls)
    (le : calls ≤ limit) :
    (machine.limited limit).GoesOn calls ∧
      (machine.limited limit).after calls = (machine.after calls).limited limit := by
  induction calls with
  | zero => exact ⟨goesOn_zero _, rfl⟩
  | succ calls ih =>
    have before : machine.GoesOn calls := goesOn.of_le (Nat.le_succ calls)
    obtain ⟨goesOn', same⟩ := ih before (Nat.le_of_succ_le le)
    have count := instructions_after unlimited.unused before
      (Nat.le_trans (Nat.le_of_succ_le le) small)
    -- As many instructions as calls have been counted, so the limit is not reached.
    obtain ⟨answered, next⟩ := answer_limited limit (unlimited.free_after calls)
      fun _ => by omega
    constructor
    · intro call below
      rcases Nat.lt_succ_iff_lt_or_eq.1 below with earlier | rfl
      · exact goesOn' call earlier
      · rw [same, answered, goesOn call below]
    · rw [after_succ, after_succ, same, next]

/-- A run that ends in front of the limit ends in the same way with it. -/
theorem run_limited_of_below (small : limit ≤ Counter.limit)
    (ends : machine.EndsAfter calls outcome) (le : calls ≤ limit)
    (below : (machine.after calls).Charged → calls < limit) :
    (machine.limited limit).run (limit + 1) = some (limitedResult limit outcome) := by
  obtain ⟨goesOn, same⟩ := unlimited.after_limited small ends.1 le
  have count := instructions_after unlimited.unused ends.1 (Nat.le_trans le small)
  obtain ⟨answered, next⟩ := answer_limited limit (unlimited.free_after calls)
    fun charged => count.symm ▸ below charged
  refine run_eq_some_iff.2 ⟨calls, Nat.lt_succ_of_le le, goesOn, ?_⟩
  rw [same, run_one, answered, next]
  rcases (run_one outcome).1 (run_of_endsAfter ends) with ⟨stops, rfl⟩ | ⟨fault, fails, rfl⟩
  · exact .inl ⟨stops, rfl⟩
  · exact .inr ⟨fault, fails, rfl⟩

/-- A run that would count one more instruction at the limit is given up. -/
theorem run_limited_of_refused (small : limit ≤ Counter.limit) (goesOn : machine.GoesOn limit)
    (charged : (machine.after limit).Charged) :
    (machine.limited limit).run (limit + 1) =
      some (.error (.stepLimitExceeded limit) ((machine.after limit).limited limit)) := by
  obtain ⟨goesOn', same⟩ := unlimited.after_limited small goesOn (Nat.le_refl limit)
  have count := instructions_after unlimited.unused goesOn small
  have refused := step_refused charged (Nat.le_of_eq count.symm)
  obtain ⟨answered, next⟩ := answer_of_error refused
  rw [run_of_goesOn goesOn', same, run_of_error answered, next]

end Unlimited

/-! ## The limit cuts a run -/

/-- A run without a limit, and the run of the same machine with a limit. The number of steps that go
on is the number of instructions that the run executes. -/
structure CutAt (limit : Nat) (free bounded : Machine) : Prop where
  /-- The limited run ends after at most one step more than the limit. -/
  ends : ∃ outcome, bounded.run (limit + 1) = some outcome ∧
    outcome.machine.instructions ≤ limit
  /-- Up to the limit, every step that goes on is counted. -/
  counts {calls : Nat} : calls ≤ limit → free.GoesOn calls →
    (free.after calls).instructions = calls
  /-- A report is kept, also when the machine stops right at the limit. -/
  reports {calls : Nat} {report : Report} {rest : Machine} : calls ≤ limit →
    free.EndsAfter calls (.ok report rest) →
      bounded.run (limit + 1) = some (.ok report (rest.limited limit))
  /-- A fault before the limit is kept. -/
  fails_below {calls : Nat} {fault : Fault} {rest : Machine} : calls < limit →
    free.EndsAfter calls (.error fault rest) →
      bounded.run (limit + 1) = some (.error fault (rest.limited limit))
  /-- A word that cannot be decoded is found before the limit is looked at. -/
  fails_undecoded {fault : Fault} {rest : Machine} : fault.undecoded = true →
    free.EndsAfter limit (.error fault rest) →
      bounded.run (limit + 1) = some (.error fault (rest.limited limit))
  /-- Every other fault at the limit gives way to the limit. -/
  fails_decoded {fault : Fault} {rest : Machine} : fault.undecoded = false →
    free.EndsAfter limit (.error fault rest) →
      bounded.run (limit + 1) =
        some (.error (.stepLimitExceeded limit) ((free.after limit).limited limit))
  /-- A run that executes more instructions than the limit is given up in front of the first of
  them, with the machine as it is then. -/
  cut : free.GoesOn (limit + 1) →
    bounded.run (limit + 1) =
      some (.error (.stepLimitExceeded limit) ((free.after limit).limited limit))

namespace Unlimited

variable (unlimited : machine.Unlimited) (small : limit ≤ Counter.limit)
include unlimited small

theorem refused_at_limit (goesOn : machine.GoesOn limit)
    (charged : (machine.after limit).Charged) :
    ∃ outcome, (machine.limited limit).run (limit + 1) = some outcome ∧
      outcome.machine.instructions ≤ limit := by
  refine ⟨_, unlimited.run_limited_of_refused small goesOn charged, ?_⟩
  exact Nat.le_of_eq (instructions_after unlimited.unused goesOn small)

theorem limited_ends : ∃ outcome, (machine.limited limit).run (limit + 1) = some outcome ∧
    outcome.machine.instructions ≤ limit := by
  rcases endsAfter_or_goesOn machine limit with ⟨calls, le, outcome, ends⟩ | goesOn
  · by_cases refused : (machine.after calls).Charged ∧ calls = limit
    · obtain ⟨charged, rfl⟩ := refused
      exact unlimited.refused_at_limit small ends.1 charged
    · have below : (machine.after calls).Charged → calls < limit := by
        intro charged
        exact Nat.lt_of_le_of_ne le fun reached => refused ⟨charged, reached⟩
      refine ⟨_, unlimited.run_limited_of_below small ends le below, ?_⟩
      have count : outcome.machine.instructions = calls :=
        (instructions_of_run_one (run_of_endsAfter ends)).trans
          (instructions_after unlimited.unused ends.1 (Nat.le_trans le small))
      rw [machine_limitedResult]
      exact Nat.le_trans (Nat.le_of_eq count) le
  · exact unlimited.refused_at_limit small (goesOn.of_le (Nat.le_succ limit))
      (charged_of_true (goesOn limit (Nat.lt_succ_self limit)))

theorem cutAt : CutAt limit machine (machine.limited limit) where
  ends := unlimited.limited_ends small
  counts := by
    intro calls le goesOn
    exact instructions_after unlimited.unused goesOn (Nat.le_trans le small)
  reports := by
    intro calls report rest le ends
    apply unlimited.run_limited_of_below small ends le
    intro charged
    exact absurd charged (not_charged_of_false (answer_of_report ends))
  fails_below := by
    intro calls fault rest below ends
    exact unlimited.run_limited_of_below small ends (Nat.le_of_lt below) fun _ => below
  fails_undecoded := by
    intro fault rest undecoded ends
    apply unlimited.run_limited_of_below small ends (Nat.le_refl limit)
    intro charged
    have decoded := (charged_iff_of_error (unlimited.free_after limit) (answer_of_fault ends)).1
      charged
    rw [undecoded] at decoded
    cases decoded
  fails_decoded := by
    intro fault rest decoded ends
    apply unlimited.run_limited_of_refused small ends.1
    exact (charged_iff_of_error (unlimited.free_after limit) (answer_of_fault ends)).2 decoded
  cut := by
    intro goesOn
    apply unlimited.run_limited_of_refused small (goesOn.of_le (Nat.le_succ limit))
    exact charged_of_true (goesOn limit (Nat.lt_succ_self limit))

end Unlimited

/-- The step limit cuts a run exactly, and it changes nothing else: for every executable, input,
size of memory and limit, the run with the limit is the run without it up to the first instruction
that is one too many. -/
theorem limit_cuts_run (executable : Executable) (input : List UInt8) (scale : Nat)
    (limit : UInt64) :
    CutAt limit.toNat (load executable input ⟨scale, none⟩)
      (load executable input ⟨scale, some limit.toNat⟩) := by
  have unlimited : (load executable input ⟨scale, none⟩).Unlimited := ⟨rfl, rfl⟩
  have small : limit.toNat ≤ Counter.limit := Nat.le_sub_one_of_lt limit.toNat_lt
  exact unlimited.cutAt small

/-- A loop is given up in front of its fourth round, and a program of one instruction and HLT
halts under a limit of one. -/
theorem limit_cuts_run_loop :
    let loop : Executable := ⟨0, [.command 16 [0, 0, 0]]⟩
    let sends : Executable := ⟨0, [.command 15 [0], .command 22 []]⟩
    ((load loop [] ⟨5, none⟩).GoesOn 4 ∧ run 4 (load loop [] ⟨5, some 3⟩) =
      some (.error (.stepLimitExceeded 3) (((load loop [] ⟨5, none⟩).after 3).limited 3))) ∧
    ∃ report rest, (load sends [] ⟨5, none⟩).EndsAfter 1 (.ok report rest) ∧
      report.output = [0] ∧
      run 2 (load sends [] ⟨5, some 1⟩) = some (.ok report (rest.limited 1)) := by
  intro loop sends
  constructor
  · have goesOn : (load loop [] ⟨5, none⟩).GoesOn 4 := by
      rw [← run_eq_none_iff, ← Option.isNone_iff_eq_none]
      decide +kernel
    exact ⟨goesOn, (limit_cuts_run loop [] 5 3).cut goesOn⟩
  · have goesOn : (load sends [] ⟨5, none⟩).GoesOn 1 := by
      rw [← run_eq_none_iff, ← Option.isNone_iff_eq_none]
      decide +kernel
    have halts : ((load sends [] ⟨5, none⟩).after 1).Halts :=
      (halted_next_iff.1 (by decide +kernel)).resolve_left (by decide +kernel)
    have stops : ((load sends [] ⟨5, none⟩).after 1).answer = .ok false := (next_of_halts halts).1
    have sent : (((load sends [] ⟨5, none⟩).after 1).next.report).output = [0] := by
      decide +kernel
    have ends := (run_of_goesOn goesOn 1).trans (run_of_false stops 0)
    refine ⟨_, _, ⟨goesOn, ends⟩, sent, ?_⟩
    exact (limit_cuts_run sends [] 5 1).reports (Nat.le_refl 1) ⟨goesOn, ends⟩

end Machine

end TickMachine
