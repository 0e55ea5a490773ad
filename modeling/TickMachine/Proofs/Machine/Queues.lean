import TickMachine.Proofs.Machine.RunsBySteps
import TickMachine.Proofs.Machine.StoredData
import TickMachine.Proofs.Machine.TableFollowed

/-! # The queues of bytes

Bytes leave the input at its front, one for each IN that succeeds, and enter the output at its end,
one for each OUT that succeeds. No other step touches either queue, so that what has been read and
what is left make up the input, and the output is what the program has sent, in order. -/

namespace TickMachine.Machine

/-- The register into which the next step takes a byte, where the step is an IN that succeeds. -/
def receives? (machine : Machine) : Option Register :=
  match machine.answer, machine.instruction? with
  | .ok true, some (.receive target) => some target
  | _, _ => none

/-- The value that the next step finds in its register, where the step is an OUT that succeeds. -/
def sends? (machine : Machine) : Option Int32 :=
  match machine.answer, machine.instruction? with
  | .ok true, some (.send source) => some (machine.register source)
  | _, _ => none

variable {machine last : Machine} {instruction : Instruction}

/-! ## Instructions -/

theorem input_compute (path : DataPath) (op : Op) (left right : Int32) :
    (compute path op left right).input = path.input := by
  unfold compute
  split <;> rfl

/-- An instruction other than IN leaves the input as it is. -/
theorem input_of_execute (other : ∀ target, instruction ≠ .receive target) {goesOn : Bool}
    (done : execute instruction machine = .ok goesOn last) :
    last.path.input = machine.path.input := by
  cases instruction with
  | nop | halt | loadImmediate | send =>
    cases done
    rfl
  | arithmetic op target left right =>
    cases done
    exact input_compute machine.path op _ _
  | load target address =>
    rw [execute_load] at done
    simp only at done
    split at done
    · cases done
      rfl
    · cases done
  | store source address =>
    rw [execute_store] at done
    simp only at done
    split at done
    · cases done
      rfl
    · cases done
  | receive target => exact absurd rfl (other target)
  | branch op left right target =>
    rw [execute_branch] at done
    simp only at done
    split at done
    · split at done
      · cases done
        exact input_compute machine.path op _ _
      · cases done
    · cases done
      exact input_compute machine.path op _ _

theorem register_assign (path : DataPath) (target : Register) (value : Int32) :
    (assign path target value).register target = value := by
  simp [assign, DataPath.register, RegisterFile.get, RegisterFile.set]

/-- An IN that succeeds takes the first byte of the input into its register. -/
theorem received_of_execute {target : Register} {goesOn : Bool}
    (done : execute (.receive target) machine = .ok goesOn last) :
    ∃ byte, machine.path.input = byte :: last.path.input ∧
      last.register target = Int32.ofNat byte.toNat := by
  rw [execute_receive] at done
  cases input : machine.path.input with
  | nil =>
    rw [input] at done
    cases done
  | cons byte rest =>
    rw [input] at done
    cases done
    exact ⟨byte, rfl, register_assign _ target _⟩

/-! ## Steps -/

theorem sends?_of_performs (performs : machine.Performs instruction)
    (answered : machine.answer = .ok true) :
    machine.sends?.toList.map DataPath.lowByte = machine.sentBy instruction := by
  unfold sends?
  rw [answered, instruction?_of_performs performs]
  cases instruction <;> rfl

theorem exists_of_receives? {target : Register} (receives : machine.receives? = some target) :
    machine.Performs (.receive target) ∧ machine.answer = .ok true := by
  unfold receives? at receives
  split at receives
  · next answered found =>
    cases receives
    obtain ⟨instruction, performs, -⟩ := completes_of_true answered
    rw [instruction?_of_performs performs] at found
    cases found
    exact ⟨performs, answered⟩
  · cases receives

/-- A step that takes a byte takes the first one of the input. -/
theorem input_next_of_receives {target : Register} (receives : machine.receives? = some target) :
    ∃ byte, machine.path.input = byte :: machine.next.path.input ∧
      machine.next.register target = Int32.ofNat byte.toNat := by
  obtain ⟨performs, answered⟩ := exists_of_receives? receives
  have done := step_of_ok answered
  rw [step_of_performs performs] at done
  exact received_of_execute done

/-- A step that does not go on leaves both queues as they are. -/
theorem queues_next_of_ne_true (stays : machine.answer ≠ .ok true) :
    machine.next.path.input = machine.path.input ∧
      machine.next.path.output = machine.path.output := by
  cases stepped machine with
  | rests stopped answer next | leaves leaves answer next | halts halts answer next
  | undecoded running fetched refused answer next | exceeds decodes refused answer next
  | misnamed decodes refused answer next =>
    rw [next]
    exact ⟨rfl, rfl⟩
  | completes performs answer => exact absurd answer stays
  | fails performs failed answer left => exact ⟨left.intact.input, left.intact.output⟩

/-- A step that takes no byte, whether it succeeds or fails, leaves the input as it is. -/
theorem input_next_of_none (silent : machine.receives? = none) :
    machine.next.path.input = machine.path.input := by
  by_cases answered : machine.answer = .ok true
  · obtain ⟨instruction, performs, -⟩ := completes_of_true answered
    have done := step_of_ok answered
    rw [step_of_performs performs] at done
    refine input_of_execute ?_ done
    rintro target rfl
    unfold receives? at silent
    rw [answered, instruction?_of_performs performs] at silent
    cases silent
  · exact (queues_next_of_ne_true answered).1

theorem sends?_of_ne_true (stays : machine.answer ≠ .ok true) : machine.sends? = none := by
  unfold sends?
  split
  · next answered found => exact absurd answered stays
  · rfl

/-- A step puts the low byte of what it sends at the end of the output, and nothing else. -/
theorem output_next (machine : Machine) :
    machine.next.path.output.toList =
      machine.path.output.toList ++ machine.sends?.toList.map DataPath.lowByte := by
  by_cases answered : machine.answer = .ok true
  · obtain ⟨instruction, performs, completes⟩ := completes_of_true answered
    rw [completes.output, sends?_of_performs performs answered]
  · rw [(queues_next_of_ne_true answered).2, sends?_of_ne_true answered]
    simp

/-! ## Sequences of steps -/

/-- The steps among some that take a byte. -/
def receiving (origins : List Machine) : List Machine := origins.filter (·.receives?.isSome)

theorem receiving_append_of_some {origins : List Machine} {target : Register}
    (receives : machine.receives? = some target) :
    receiving (origins ++ [machine]) = receiving origins ++ [machine] := by
  simp [receiving, receives]

theorem receiving_append_of_none {origins : List Machine} (silent : machine.receives? = none) :
    receiving (origins ++ [machine]) = receiving origins := by
  simp [receiving, silent]

/-- The input is what a number of steps have taken and what they have left. -/
theorem input_after (machine : Machine) (calls : Nat) :
    (machine.after calls).path.input =
      machine.path.input.drop (receiving (machine.origins calls)).length := by
  induction calls with
  | zero => rfl
  | succ calls ih =>
    rw [after_succ, origins_succ]
    cases receives : (machine.after calls).receives? with
    | none => rw [input_next_of_none receives, receiving_append_of_none receives, ih]
    | some target =>
      obtain ⟨byte, parts, -⟩ := input_next_of_receives receives
      rw [receiving_append_of_some receives, List.length_append, List.length_singleton,
        ← List.drop_drop, ← ih, parts]
      rfl

/-- The steps that take a byte take the bytes of the input in their order. -/
theorem received_after {calls index : Nat} {origin : Machine}
    (among : (receiving (machine.origins calls))[index]? = some origin) :
    ∃ target byte, origin.receives? = some target ∧ machine.path.input[index]? = some byte ∧
      origin.next.register target = Int32.ofNat byte.toNat := by
  induction calls with
  | zero => cases among
  | succ calls ih =>
    rw [origins_succ] at among
    cases receives : (machine.after calls).receives? with
    | none =>
      rw [receiving_append_of_none receives] at among
      exact ih among
    | some target =>
      rw [receiving_append_of_some receives, List.getElem?_append] at among
      split at among
      · exact ih among
      · next behind =>
        have place : index = (receiving (machine.origins calls)).length ∧
            origin = machine.after calls := by
          rw [List.getElem?_singleton] at among
          split at among
          · cases among
            exact ⟨by omega, rfl⟩
          · cases among
        obtain ⟨rfl, rfl⟩ := place
        obtain ⟨byte, parts, held⟩ := input_next_of_receives receives
        refine ⟨target, byte, receives, ?_, held⟩
        rw [← List.head?_drop, ← input_after, parts]
        rfl

/-- The output is what was there and the low bytes of what the steps have sent. -/
theorem output_after_sends (machine : Machine) (calls : Nat) :
    (machine.after calls).path.output.toList =
      machine.path.output.toList ++
        ((machine.origins calls).filterMap sends?).map DataPath.lowByte := by
  induction calls with
  | zero => simp [after, origins]
  | succ calls ih =>
    rw [after_succ, output_next, ih, origins_succ, List.filterMap_append, List.map_append,
      List.append_assoc]
    cases sends : (machine.after calls).sends? <;> simp [sends]

theorem lowByte_toNat (value : Int32) :
    ((DataPath.lowByte value).toNat : Int) = value.toInt % 256 := by
  rw [← InstructionTable.lowByte_eq, InstructionTable.lowByte, InstructionTable.unsigned,
    UInt8.toNat_ofNat', InstructionTable.size_eq]
  omega

theorem toInt_of_byte (byte : UInt8) : (Int32.ofNat byte.toNat).toInt = byte.toNat :=
  Int32.toInt_ofNat_of_lt (Nat.lt_trans byte.toNat_lt (by decide))

/-- No byte is lost, doubled or moved. However many steps are made on a loaded program, and however
many of them fail, the input is left without as many bytes as there were INs that succeeded, each
of these set its register to the byte in its place of the input, and the output holds the values of
the OUTs that succeeded, modulo 256 and in their order. -/
theorem bytes_keep_their_order (executable : Executable) (input : List UInt8) (config : Config)
    (calls : Nat) :
    let start := load executable input config
    let taking := receiving (start.origins calls)
    (start.after calls).path.input = input.drop taking.length ∧
    (∀ (index : Nat) (origin : Machine), taking[index]? = some origin →
      ∃ target byte, origin.receives? = some target ∧ input[index]? = some byte ∧
        (origin.next.register target).toInt = byte.toNat) ∧
    (start.after calls).path.output.toList.map (fun byte => (byte.toNat : Int)) =
      ((start.origins calls).filterMap sends?).map (·.toInt % 256) := by
  intro start taking
  refine ⟨input_after start calls, ?_, ?_⟩
  · intro index origin among
    obtain ⟨target, byte, receives, place, held⟩ := received_after among
    exact ⟨target, byte, receives, place, held ▸ toInt_of_byte byte⟩
  · have sent := output_after_sends start calls
    rw [show start.path.output.toList = [] from rfl, List.nil_append] at sent
    rw [sent, List.map_map]
    exact List.map_congr_left fun value _ => lowByte_toNat value

/-- A byte that is echoed, a negative value that is sent, and an IN that fails twice at the end of
the input. -/
theorem bytes_keep_their_order_echo :
    let echo : Executable := ⟨0, [.command 14 [0], .command 15 [0], .command 11 [1, -2],
      .command 15 [1], .command 14 [2]]⟩
    (receiving ((load echo [7] {}).origins 6))[0]? = some (load echo [7] {}) ∧
      (load echo [7] {}).receives? = some .r0 ∧
      ((load echo [7] {}).next.register .r0).toInt = 7 ∧
      ((load echo [7] {}).after 6).path.input =
        List.drop (receiving ((load echo [7] {}).origins 6)).length [7] ∧
      ((load echo [7] {}).after 6).path.input = [] ∧
      ((load echo [7] {}).after 6).path.output = #[7, 254] ∧
      (((load echo [7] {}).origins 6).filterMap sends?).map (·.toInt % 256) = [7, 254] := by
  intro echo
  obtain ⟨left, taken, sent⟩ := bytes_keep_their_order echo [7] {} 6
  have first : (receiving ((load echo [7] {}).origins 6))[0]? = some (load echo [7] {}) := by
    decide +kernel
  have receives : (load echo [7] {}).receives? = some .r0 := by
    decide +kernel
  obtain ⟨target, byte, found, place, held⟩ := taken 0 (load echo [7] {}) first
  rw [receives] at found
  cases found
  cases place
  have empty : ((load echo [7] {}).after 6).path.input = [] := by
    decide +kernel
  have output : ((load echo [7] {}).after 6).path.output = #[7, 254] := by
    decide +kernel
  rw [output] at sent
  exact ⟨first, receives, held, left, empty, output, sent.symm⟩

end TickMachine.Machine
