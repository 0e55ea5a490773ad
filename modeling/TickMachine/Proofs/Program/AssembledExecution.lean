import TickMachine.Proofs.Assembly.Reassembly
import TickMachine.Proofs.Machine.RunsBySteps
import TickMachine.Proofs.Machine.StoredData
import TickMachine.Proofs.Program.DescriptorRoundTrip
import TickMachine.Proofs.Program.WrittenCommands

/-! # Execution of assembled programs

Every command that the assembler emits can be executed, and a running program puts no other command
into memory. So an assembled program that meets a word which cannot be decoded has run into data:
its own, or what it has stored over its commands. -/

namespace TickMachine

/-! ## Words that have a text -/

section

variable {word : Word} {text : String} {address : Nat}

/-- A word that has a text is refused as data only. -/
theorem isData_of_refused {fault : Fault} (written : word.disassemble = .ok text)
    (refused : word.decode address = .error fault) : word.IsData := by
  cases word with
  | data value => exact ⟨value, rfl⟩
  | command opcode args =>
    obtain ⟨decoded, instruction, decode, -⟩ := executed_of_written written address
    rw [refused] at decode
    cases decode

/-- Data that is decoded has no operands in which a register could be missing. -/
theorem instruction_of_data {value : Int32} {decoded : Decoded}
    (decode : (Word.data value).decode address = .ok decoded) :
    ∃ instruction, decoded.instruction = .ok instruction := by
  have bare : decoded.args.toList = [] := by
    unfold Word.decode at decode
    split at decode
    · cases decode
    · split at decode
      · cases decode
        rfl
      · cases decode
  have none : Disassembly.operands decoded.op.kinds [] = .ok [] := by
    cases decoded.op.kinds <;> rfl
  have agree := decoded.agree
  rw [bare, none] at agree
  generalize decoded.instruction = attempt at agree
  cases agree with
  | found instruction => exact ⟨instruction, rfl⟩

/-- A word that has a text makes an instruction once it is decoded. -/
theorem instruction_of_written {decoded : Decoded} (written : word.disassemble = .ok text)
    (decode : word.decode address = .ok decoded) :
    ∃ instruction, decoded.instruction = .ok instruction := by
  cases word with
  | data value => exact instruction_of_data decode
  | command opcode args =>
    obtain ⟨again, instruction, decode', made⟩ := executed_of_written written address
    rw [decode] at decode'
    cases decode'
    exact ⟨instruction, made⟩

end

/-! ## Excused faults -/

namespace Machine

/-- Whether the cell at the instruction pointer holds plain data. -/
def AtData (machine : Machine) : Prop :=
  ∃ word, machine.path.memory.word? machine.ip = some word ∧ word.IsData

/-- The faults of a machine all of whose commands can be executed: a word is refused only where it
is data, which has no arguments, and no register is missing. -/
def Excuses (machine : Machine) : Fault → Prop
  | .invalidRegister _ => False
  | .argumentCount _ address _ got => got = 0 ∧ address = machine.ip ∧ machine.AtData
  | .unknownOpcode _ address => address = machine.ip ∧ machine.AtData
  | _ => True

variable {machine other : Machine} {fault : Fault}

theorem Excuses.of_intact (excuses : machine.Excuses fault) (intact : Intact machine other) :
    other.Excuses fault := by
  have same : other.AtData = machine.AtData := by
    unfold AtData
    rw [intact.memory, intact.ip]
  cases fault with
  | unknownOpcode opcode address | argumentCount op address expected got =>
    rwa [Excuses, intact.ip, same]
  | _ => exact excuses

/-- Data is refused for its code or for its lack of arguments. -/
theorem excuses_of_refused {word : Word} (present : machine.path.memory.word? machine.ip = some word)
    (data : word.IsData) (refused : word.decode machine.ip = .error fault) :
    machine.Excuses fault := by
  have atData : machine.AtData := ⟨word, present, data⟩
  obtain ⟨value, rfl⟩ := data
  unfold Word.decode at refused
  split at refused
  · cases refused
    exact ⟨rfl, atData⟩
  · split at refused
    · cases refused
    · cases refused
      exact ⟨rfl, rfl, atData⟩

/-- A machine whose next word has a text excuses the fault of its next step. -/
theorem excuses_of_written
    (written : ∀ word, machine.path.memory.word? machine.ip = some word →
      ∃ text, word.disassemble = .ok text)
    (failed : machine.answer = .error fault) : machine.Excuses fault := by
  cases stepped machine with
  | rests stopped answer | leaves leaves answer | halts halts answer | completes performs answer =>
    rw [answer] at failed
    cases failed
  | undecoded running fetched refused answer =>
    rw [answer] at failed
    cases failed
    have present := word?_of_fetch? machine fetched
    obtain ⟨text, written⟩ := written _ present
    exact excuses_of_refused present (isData_of_refused written refused) refused
  | exceeds decodes refused answer =>
    rw [answer] at failed
    cases failed
    unfold refusal? at refused
    split at refused
    · split at refused
      · cases refused
        trivial
      · cases refused
    · cases refused
  | misnamed decodes refused answer =>
    obtain ⟨-, word, fetched, decode⟩ := decodes
    obtain ⟨text, written⟩ := written word (word?_of_fetch? machine fetched)
    obtain ⟨instruction, made⟩ := instruction_of_written written decode
    rw [refused] at made
    cases made
  | fails performs executed answer =>
    rw [answer] at failed
    cases failed
    obtain ⟨address, rfl⟩ | rfl | ⟨target, rfl⟩ := fault_of_execute executed
    · trivial
    · trivial
    · trivial

end Machine

/-- On every input, every step and every run of the executable fails, if it does, at a machine that
excuses the fault. -/
structure Executable.FailsOnDataOnly (executable : Executable) : Prop where
  steps (input : List UInt8) (config : Config) (calls : Nat) (fault : Fault) :
    ((Machine.load executable input config).after calls).answer = .error fault →
      ((Machine.load executable input config).after calls).Excuses fault
  runs (input : List UInt8) (config : Config) (fuel : Nat) (fault : Fault) (rest : Machine) :
    (Machine.load executable input config).run fuel = some (.error fault rest) →
      rest.Excuses fault

namespace Executable

variable {executable : Executable}

theorem excuses_after (written : ∀ word ∈ executable.program, ∃ text, word.disassemble = .ok text)
    {input : List UInt8} {config : Config} {calls : Nat} {fault : Fault}
    (failed : ((Machine.load executable input config).after calls).answer = .error fault) :
    ((Machine.load executable input config).after calls).Excuses fault := by
  apply Machine.excuses_of_written _ failed
  intro word found
  rcases Machine.cells_after found with program | ⟨value, rfl⟩
  · exact written word (List.mem_of_getElem? program)
  · exact ⟨_, rfl⟩

theorem failsOnDataOnly_of_written
    (written : ∀ word ∈ executable.program, ∃ text, word.disassemble = .ok text) :
    executable.FailsOnDataOnly where
  steps input config calls fault failed := excuses_after written failed
  runs input config fuel fault rest ends := by
    obtain ⟨calls, -, -, failed, rfl⟩ := Machine.run_error_iff.1 ends
    have excuses := excuses_after written failed
    rw [Machine.after_succ]
    exact excuses.of_intact (Machine.next_fails (Machine.Intact.refl _) failed).2.intact

theorem written_persisted
    (written : ∀ word ∈ executable.program, ∃ text, word.disassemble = .ok text) :
    ∀ word ∈ executable.persisted.program, ∃ text, word.disassemble = .ok text := by
  intro word member
  obtain ⟨original, among, rfl⟩ := List.mem_map.1 member
  match original with
  | .data value => exact ⟨_, rfl⟩
  | .command opcode [] => exact ⟨_, rfl⟩
  | .command opcode (first :: others) => exact written _ among

/-- However a program overwrites itself, each cell of memory holds the word that was loaded there, or
data, and memory keeps its size. So an assembled executable fails to be decoded on data only, and so
does what is read back from its descriptor. The start is an address of 64 bits. -/
theorem stores_forge_nothing :
    (∀ (executable : Executable) (input : List UInt8) (config : Config) (calls : Nat),
      ((Machine.load executable input config).after calls).path.memory.size =
          (Machine.load executable input config).path.memory.size ∧
        ∀ address word,
          ((Machine.load executable input config).after calls).path.memory.word? address =
              some word →
            executable.program[address]? = some word ∨ word.IsData) ∧
    ∀ (source : String) (executable : Executable), assemble source = .ok executable →
      executable.FailsOnDataOnly ∧
      (executable.start < UInt64.size →
        ∃ kept, ofJson executable.toJson = .ok kept ∧ kept.FailsOnDataOnly) := by
  constructor
  · intro executable input config calls
    exact ⟨(Machine.overwritten_after _ calls).size, fun _ _ found => Machine.cells_after found⟩
  · intro source executable assembled
    have written := (writable_of_assemble assembled).words
    refine ⟨failsOnDataOnly_of_written written, ?_⟩
    intro addressable
    exact ⟨executable.persisted, executable.ofJson_toJson addressable,
      failsOnDataOnly_of_written (written_persisted written)⟩

/-- A program that stores a number over its HLT, which is then refused as an addition without
operands. -/
theorem stores_forge_nothing_overwritten :
    assemble "_start:\nLDI %R1, 1\nSTA %R1, 2\nHLT" =
        .ok ⟨0, [.command 11 [1, 1], .command 13 [1, 2], .command 22 []]⟩ ∧
      ((Machine.load ⟨0, [.command 11 [1, 1], .command 13 [1, 2], .command 22 []]⟩ [] {}).after
        2).answer = .error (.argumentCount .add 2 3 0) ∧
      ((Machine.load ⟨0, [.command 11 [1, 1], .command 13 [1, 2], .command 22 []]⟩ [] {}).after
        2).Excuses (.argumentCount .add 2 3 0) ∧
      ∃ kept, ofJson (toJson ⟨0, [.command 11 [1, 1], .command 13 [1, 2], .command 22 []]⟩) =
          .ok kept ∧
        kept.FailsOnDataOnly := by
  have written : sourceText ⟨0, [.command 11 [1, 1], .command 13 [1, 2], .command 22 []]⟩ =
      .ok "_start:\nLDI %R1, 1\nSTA %R1, 2\nHLT" := by
    cbv
  have assembled := (assemble_sourceText (Nat.zero_le _) written).1
  have failed : ((Machine.load ⟨0, [.command 11 [1, 1], .command 13 [1, 2], .command 22 []]⟩
      [] {}).after 2).answer = .error (.argumentCount .add 2 3 0) := by
    rfl
  obtain ⟨direct, persisted⟩ := stores_forge_nothing.2 _ _ assembled
  exact ⟨assembled, failed, direct.steps [] {} 2 _ failed, persisted (by decide)⟩

end Executable

end TickMachine
