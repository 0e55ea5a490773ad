import TickMachine.Proofs.Assembly.SecondPass
import TickMachine.Proofs.Machine.Views
import TickMachine.Proofs.Program.PersistedExecution
import TickMachine.Proofs.Source.Transitions

/-! # The echo

The echo sends every byte that it takes, until it takes a zero. Register 7 is zero throughout, and
nothing else is carried from one byte to the next, so that a round of the loop is described by the
input that is left and the output so far. -/

namespace TickMachine.Echo

/-- The source of the echo. -/
def source : String := "
_start:
    IN %R0
    BEQ %R0, %R7, end
    OUT %R0
    BEQ %R7, %R7, _start
end:
    HLT
"

/-- The echo. -/
def executable : Executable where
  start := 0
  program := [.ofOp .input [0], .ofOp .beq [0, 7, 4], .ofOp .output [0], .ofOp .beq [7, 7, 0],
    .ofOp .hlt []]

/-! ## Assembly -/

/-- The tokens of the source. -/
def tokens : List Token :=
  [⟨.label, "_start", 1⟩,
    ⟨.instruction, "IN", 13⟩, ⟨.register, "R0", 16⟩,
    ⟨.instruction, "BEQ", 24⟩, ⟨.register, "R0", 28⟩, ⟨.register, "R7", 33⟩,
    ⟨.reference, "end", 38⟩,
    ⟨.instruction, "OUT", 46⟩, ⟨.register, "R0", 50⟩,
    ⟨.instruction, "BEQ", 58⟩, ⟨.register, "R7", 62⟩, ⟨.register, "R7", 67⟩,
    ⟨.reference, "_start", 72⟩,
    ⟨.label, "end", 79⟩,
    ⟨.instruction, "HLT", 88⟩]

/-- The words and the labels of the source. -/
def draft : Draft where
  words := #[
    .command .input [.literal 0],
    .command .beq [.literal 0, .literal 7, .label "end"],
    .command .output [.literal 0],
    .command .beq [.literal 7, .literal 7, .label "_start"],
    .command .hlt []]
  labels := ⟨[("_start", 0), ("end", 4)]⟩

theorem lex_source : lex source = .ok tokens :=
  Lexer.lex_of_finishWithin 200 (by decide +kernel)

theorem extend_tokens : Draft.empty.extend tokens = (draft.labels, .ok draft) := by
  rw [tokens]
  iterate 7 rw [Draft.extend_cons rfl rfl]
  exact Draft.extend_nil draft

/-- The source of the echo is assembled. -/
theorem assemble_source : assemble source = .ok executable :=
  assemble_eq_ok_iff.2 ⟨_, assembleWithLabels_of_draft draft lex_source extend_tokens rfl⟩

/-! ## The loop -/

theorem carries_take : Carries executable.program 0 (.receive .r0) :=
  ⟨_, ⟨.input, #v[0]⟩, rfl, rfl, nofun, rfl⟩

theorem carries_test : Carries executable.program 1 (.branch .beq .r0 .r7 4) :=
  ⟨_, ⟨.beq, #v[0, 7, 4]⟩, rfl, rfl, nofun, rfl⟩

theorem carries_send : Carries executable.program 2 (.send .r0) :=
  ⟨_, ⟨.output, #v[0]⟩, rfl, rfl, nofun, rfl⟩

theorem carries_repeat : Carries executable.program 3 (.branch .beq .r7 .r7 0) :=
  ⟨_, ⟨.beq, #v[7, 7, 0]⟩, rfl, rfl, nofun, rfl⟩

/-- No byte but zero is taken for the end. -/
theorem holds_byte {byte : UInt8} (other : byte ≠ 0) :
    Op.beq.holds (Int32.ofNat byte.toNat) 0 = false := by
  rw [InstructionTable.beq_holds, Machine.toInt_of_byte, decide_eq_false_iff_not]
  intro zero
  have zero : (byte.toNat : Int) = 0 := zero
  exact other (UInt8.toNat_inj.1 (Int.natCast_eq_zero.1 zero))

theorem lowByte_byte (byte : UInt8) : DataPath.lowByte (Int32.ofNat byte.toNat) = byte := by
  have sent := Machine.lowByte_toNat (Int32.ofNat byte.toNat)
  rw [Machine.toInt_of_byte] at sent
  have small := byte.toNat_lt
  apply UInt8.toNat_inj.1
  omega

/-- The view at the start of the loop, when some bytes have been copied and others are left. -/
structure AtLoop (copied left : List UInt8) (view : View) : Prop where
  ip : view.ip = 0
  zero : view.registers .r7 = 0
  input : view.input = left
  output : view.output = copied
  instructions : view.instructions = 4 * copied.length
  ticks : view.ticks = 4 * copied.length

variable {copied left : List UInt8} {view : View}

/-- One round of the loop copies one byte. -/
theorem leads_round {byte : UInt8} (before : AtLoop copied (byte :: left) view)
    (other : byte ≠ 0) :
    ∃ next, view.Leads executable.program 4 next ∧ AtLoop (copied ++ [byte]) left next := by
  obtain ⟨ip, registers, input, output, instructions, ticks⟩ := view
  obtain ⟨start, zero, head, sent, completed, spent⟩ := before
  simp only at start zero head sent completed spent
  subst start head sent completed spent
  have differs : Op.beq.holds (Int32.ofNat byte.toNat) (registers .r7) = false := by
    rw [zero]
    exact holds_byte other
  have same : Op.beq.holds (registers .r7) (registers .r7) = true := beq_self_eq_true _
  have back : (0 : Int32).toInt = (0 : Nat) := rfl
  -- The test for the end fails on the byte, and the last branch always leads back.
  refine ⟨_, .move (.receive carries_take rfl) (.move (.pass carries_test rfl differs)
    (.move (.send carries_send (lowByte_byte byte))
    (.move (.jump carries_repeat rfl same back) .stay))), ?_⟩
  constructor
  · rfl
  · exact zero
  · rfl
  · rfl
  · show 4 * output.length + 1 + 1 + 1 + 1 = 4 * (output ++ [byte]).length
    rw [List.length_append, List.length_singleton]
    omega
  · show 4 * output.length + 1 + 1 + 1 + 1 = 4 * (output ++ [byte]).length
    rw [List.length_append, List.length_singleton]
    omega

/-- The loop copies bytes one after the other, as long as none of them is zero. -/
theorem leads_rounds {bytes : List UInt8} (before : AtLoop copied (bytes ++ left) view)
    (visible : 0 ∉ bytes) :
    ∃ next, view.Leads executable.program (4 * bytes.length) next ∧
      AtLoop (copied ++ bytes) left next := by
  induction bytes generalizing copied view with
  | nil =>
    rw [List.append_nil]
    exact ⟨view, .stay, before⟩
  | cons byte bytes ih =>
    obtain ⟨other, visible⟩ := List.ne_and_not_mem_of_not_mem_cons visible
    obtain ⟨middle, round, between⟩ := leads_round before other.symm
    obtain ⟨next, rounds, after⟩ := ih between visible
    have moves : 4 + 4 * bytes.length = 4 * (byte :: bytes).length := by
      rw [List.length_cons]
      omega
    rw [List.append_assoc] at after
    exact ⟨next, moves ▸ round.trans rounds, after⟩

/-- The loop ends with a zero, which is not sent. -/
theorem leads_end (before : AtLoop copied (0 :: left) view) :
    ∃ last, view.Leads executable.program 2 last ∧ last.ip = 4 ∧ last.output = copied ∧
      last.instructions = 4 * copied.length + 2 ∧ last.ticks = 4 * copied.length + 2 := by
  obtain ⟨ip, registers, input, output, instructions, ticks⟩ := view
  obtain ⟨start, zero, head, sent, completed, spent⟩ := before
  simp only at start zero head sent completed spent
  subst start head sent completed spent
  have same : Op.beq.holds (Int32.ofNat (0 : UInt8).toNat) (registers .r7) = true := by
    rw [zero]
    rfl
  have halt : (4 : Int32).toInt = (4 : Nat) := rfl
  exact ⟨_, .move (.receive carries_take rfl)
    (.move (.jump carries_test rfl same halt) .stay), rfl, rfl, rfl, rfl⟩

theorem atLoop_start (input : List UInt8) : AtLoop [] input { ip := executable.start, input } :=
  ⟨rfl, rfl, rfl, rfl, rfl, rfl⟩

/-! ## Runs -/

/-- An executable copies its input up to a zero, which halts it, or up to the end of the input, which
makes it fail with all bytes in the output. A counter stops at the last number of 64 bits, which only
2 ^ 62 bytes would reach. -/
structure Copies (loaded : Executable) (bytes : List UInt8) (memoryScale : Nat) : Prop where
  halts (behind : List UInt8) : ∃ rest, ∀ fuel, 4 * bytes.length + 2 < fuel →
    (Machine.load loaded (bytes ++ 0 :: behind) { memoryScale }).run fuel = some (.ok
      { output := bytes
        ticks := min (4 * bytes.length + 2) Counter.limit
        instructions := min (4 * bytes.length + 2) Counter.limit
        halted := true } rest)
  exhausts : ∃ rest, rest.path.output.toList = bytes ∧ ∀ fuel, 4 * bytes.length < fuel →
    (Machine.load loaded bytes { memoryScale }).run fuel = some (.error .inputExhausted rest)

/-- An executable that copies still does so in its persisted form. -/
theorem Copies.persisted {loaded : Executable} {bytes : List UInt8} {memoryScale : Nat}
    (copies : Copies loaded bytes memoryScale) :
    Copies loaded.persisted bytes memoryScale where
  halts := by
    intro behind
    obtain ⟨rest, ran⟩ := copies.halts behind
    refine ⟨rest.persisted, ?_⟩
    intro fuel enough
    rw [Machine.load_persisted, Machine.run_persisted, ran fuel enough]
    rfl
  exhausts := by
    obtain ⟨rest, output, ran⟩ := copies.exhausts
    refine ⟨rest.persisted, output, ?_⟩
    intro fuel enough
    rw [Machine.load_persisted, Machine.run_persisted, ran fuel enough]
    rfl

section

variable {bytes : List UInt8} (visible : 0 ∉ bytes) (memoryScale : Nat)
include visible

theorem copies_executable : Copies executable bytes memoryScale where
  halts := by
    intro behind
    have start : AtLoop [] (bytes ++ 0 :: behind) _ := atLoop_start (bytes ++ 0 :: behind)
    obtain ⟨middle, rounds, before⟩ := leads_rounds start visible
    obtain ⟨last, ends, ip, output, instructions, ticks⟩ := leads_end before
    have halt : executable.program[last.ip]? = some (.command Op.hlt.code []) := by
      rw [ip]
      rfl
    have shows := Machine.shows_load executable (bytes ++ 0 :: behind) memoryScale
    have ran := Machine.run_of_leads shows (rounds.trans ends) halt
    rw [output, instructions, ticks] at ran
    exact ran
  exhausts := by
    have start : AtLoop [] (bytes ++ []) { ip := executable.start, input := bytes } := by
      rw [List.append_nil]
      exact atLoop_start bytes
    obtain ⟨last, rounds, after⟩ := leads_rounds start visible
    have take : Carries executable.program last.ip (.receive .r0) := by
      rw [after.ip]
      exact carries_take
    have shows := Machine.shows_load executable bytes memoryScale
    have ran := Machine.run_of_exhausted shows rounds take after.input
    rw [after.output] at ran
    exact ran

/-- The echo copies every input. Its source is assembled, the program is read back from its
descriptor, and both programs, with any memory, copy all bytes in front of the first zero within four
instructions for each of them. -/
theorem echo_copies :
    ∃ program kept, assemble source = .ok program ∧ Executable.ofJson program.toJson = .ok kept ∧
      Copies program bytes memoryScale ∧ Copies kept bytes memoryScale := by
  have copies := copies_executable visible memoryScale
  exact ⟨executable, executable.persisted, assemble_source, executable.ofJson_toJson (by decide),
    copies, copies.persisted⟩

end

/-- Bytes at both ends of their range. -/
theorem echo_copies_extremes :
    0 ∉ ([255, 1, 128] : List UInt8) ∧
      ∃ program kept, assemble source = .ok program ∧
        Executable.ofJson program.toJson = .ok kept ∧
        Copies program [255, 1, 128] 5 ∧ Copies kept [255, 1, 128] 5 := by
  have visible : 0 ∉ ([255, 1, 128] : List UInt8) := by
    decide
  exact ⟨visible, echo_copies visible 5⟩

end TickMachine.Echo
