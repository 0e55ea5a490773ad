import TickMachine.Proofs.Machine.Persistence
import TickMachine.Proofs.Program.DescriptorRoundTrip

/-! # Persisting keeps the execution

An executable that is written to its descriptor and read back behaves as before: no input, no limit
and no number of steps tells the two machines apart from outside, although the words in their
memories differ. -/

namespace TickMachine

/-- What can be seen of a machine from outside. Memory is seen through the number that each address
holds, or the fault of reading there. -/
structure Observation where
  ip : Nat
  ticks : Nat
  instructions : Nat
  registers : RegisterFile
  input : List UInt8
  output : Array UInt8
  status : Status
  contents : Int32 → Except Fault Int32

namespace Machine

/-- The view of a machine from outside. -/
def observation (machine : Machine) : Observation where
  ip := machine.ip
  ticks := machine.ticks
  instructions := machine.instructions
  registers := machine.path.registers
  input := machine.path.input
  output := machine.path.output
  status := machine.status
  contents := machine.path.memory.read

theorem observation_persisted (machine : Machine) :
    machine.persisted.observation = machine.observation := by
  have contents : machine.persisted.path.memory.read = machine.path.memory.read :=
    funext machine.path.memory.read_persisted
  simp only [observation, contents]
  rfl

end Machine

theorem Outcome.answer_persistedResult (outcome : Outcome) :
    answer (Machine.persistedResult outcome) = outcome.answer := by
  cases outcome <;> rfl

/-- Two executables are interchangeable when their machines answer alike to every call of `step`,
look alike after it, and end a run alike, within the same number of steps. -/
structure Executable.Interchangeable (first second : Executable) : Prop where
  answers (input : List UInt8) (config : Config) (calls : Nat) :
    ((Machine.load first input config).after calls).answer =
      ((Machine.load second input config).after calls).answer
  observations (input : List UInt8) (config : Config) (calls : Nat) :
    ((Machine.load first input config).after calls).observation =
      ((Machine.load second input config).after calls).observation
  runs (input : List UInt8) (config : Config) (fuel : Nat) :
    ((Machine.load first input config).run fuel).map Outcome.answer =
      ((Machine.load second input config).run fuel).map Outcome.answer

namespace Executable

theorem interchangeable_persisted (executable : Executable) :
    executable.persisted.Interchangeable executable where
  answers input config calls := by
    rw [Machine.load_persisted, Machine.after_persisted, Machine.answer_persisted]
  observations input config calls := by
    rw [Machine.load_persisted, Machine.after_persisted, Machine.observation_persisted]
  runs input config fuel := by
    rw [Machine.load_persisted, Machine.run_persisted, Option.map_map]
    congr 1
    exact funext Outcome.answer_persistedResult

/-- Writing an executable to its descriptor and reading it back succeeds, and gives an
interchangeable executable. Its words are the same, except that a command without arguments has
become data. The start is an address of 64 bits. -/
theorem persisting_keeps_execution (executable : Executable)
    (addressable : executable.start < UInt64.size) :
    ∃ kept, ofJson executable.toJson = .ok kept ∧ kept.start = executable.start ∧
      kept.program = executable.program.map Word.persisted ∧
      kept.Interchangeable executable :=
  ⟨executable.persisted, executable.ofJson_toJson addressable, rfl, rfl,
    executable.interchangeable_persisted⟩

/-- A program that only halts comes back as a data word and still halts. -/
theorem persisting_keeps_halting :
    ∃ kept, ofJson (toJson ⟨0, [.command 22 []]⟩) = .ok kept ∧ kept.program = [.data 22] ∧
      kept.Interchangeable ⟨0, [.command 22 []]⟩ := by
  obtain ⟨kept, read, -, program, same⟩ :=
    persisting_keeps_execution ⟨0, [.command 22 []]⟩ (by decide)
  exact ⟨kept, read, program, same⟩

end Executable

end TickMachine
