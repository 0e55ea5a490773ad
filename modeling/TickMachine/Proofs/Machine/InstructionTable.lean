import TickMachine.Machine.Step

/-! # The instruction table

What each operation does, said on the state that a program can see: registers, memory, queues and
counters, in the arithmetic of integers. The latches of the data path have no place in that state,
so that a step which follows the table cannot depend on what an earlier instruction left there. -/

namespace TickMachine

/-- What a program can see of a machine: everything but the latches of the data path. -/
structure Visible where
  registers : List Int32
  memory : List Word
  ip : Nat
  input : List UInt8
  output : List UInt8
  ticks : Nat
  instructions : Nat
  programLength : Nat
  config : Config
  status : Status

/-- The visible part of a machine. -/
def Machine.visible (machine : Machine) : Visible where
  registers := machine.path.registers.values.toList
  memory := machine.path.memory.cells.toList
  ip := machine.ip
  input := machine.path.input
  output := machine.path.output.toList
  ticks := machine.ticks
  instructions := machine.instructions
  programLength := machine.programLength
  config := machine.config
  status := machine.status

namespace InstructionTable

/-! ## Values -/

/-- The sum in two's complement of 32 bits. -/
def sum (left right : Int32) : Int32 := .ofInt (left.toInt + right.toInt)

/-- The difference in two's complement of 32 bits. -/
def difference (left right : Int32) : Int32 := .ofInt (left.toInt - right.toInt)

/-- The unsigned number of the same 32 bits. -/
def unsigned (value : Int32) : Nat := (value.toInt % UInt32.size).toNat

/-- The logical shift to the right: the unsigned number divided by a power of two, whose exponent
is taken modulo 32. -/
def shifted (left right : Int32) : Int32 :=
  .ofNat (unsigned left / Nat.pow 2 (right.toInt % 32).toNat)

/-- The bits in which two values differ. -/
def exclusive (left right : Int32) : Int32 := .ofNat (unsigned left ^^^ unsigned right)

/-- The low byte of a value. -/
def lowByte (value : Int32) : UInt8 := .ofNat (unsigned value % 256)

/-! ## The state -/

/-- What a step answers, and the state that it leaves. -/
abbrev Result := Except Fault Bool × Visible

section

variable (state : Visible)

/-- The content of the register of a code. -/
def register (code : Int32) : Int32 := state.registers.getD code.toInt.toNat 0

/-- The word in the cell of an address. -/
def cell? (address : Int32) : Option Word :=
  if 0 ≤ address.toInt then state.memory[address.toInt.toNat]? else none

/-- An operation that is completed within a number of ticks, and goes on at an address. -/
def goOn (ip ticks : Nat) : Result :=
  (.ok true,
    { state with
      ip
      ticks := min (state.ticks + ticks) Counter.limit
      instructions := min (state.instructions + 1) Counter.limit })

/-- An operation that fails within its first tick. -/
def failLate (fault : Fault) : Result :=
  (.error fault, { state with ticks := min (state.ticks + 1) Counter.limit })

/-- Writes a register. -/
def assign (code value : Int32) (ticks : Nat) : Result :=
  goOn { state with registers := state.registers.set code.toInt.toNat value } (state.ip + 1) ticks

/-- Reads a cell into a register. A command reads as its opcode. -/
def load (code address : Int32) : Result :=
  match cell? state address with
  | some (.data value) => assign state code value 2
  | some (.command opcode _) => assign state code opcode 2
  | none => failLate state (.memoryOutOfBounds address)

/-- Writes a cell. It holds data from then on. -/
def store (address value : Int32) : Result :=
  match cell? state address with
  | some _ =>
    goOn { state with memory := state.memory.set address.toInt.toNat (.data value) }
      (state.ip + 1) 2
  | none => failLate state (.memoryOutOfBounds address)

/-- Takes the first byte of the input into a register. -/
def receive (code : Int32) : Result :=
  match state.input with
  | [] => (.error .inputExhausted, state)
  | byte :: input => assign { state with input } code (.ofNat byte.toNat) 1

/-- Puts a byte at the end of the output. -/
def send (byte : UInt8) : Result :=
  goOn { state with output := state.output ++ [byte] } (state.ip + 1) 1

/-- Goes on at a target where a comparison of two registers holds, and at the next address where it
does not. -/
def branch (holds : Int → Int → Bool) (left right target : Int32) : Result :=
  if holds (register state left).toInt (register state right).toInt then
    if 0 ≤ target.toInt then goOn state target.toInt.toNat 1
    else failLate state (.invalidBranchTarget target)
  else goOn state (state.ip + 1) 1

/-! ## The table -/

/-- What an operation does with its operands, row by row. The last row is about lists of operands
that no operation has. -/
def operate : Op → List Int32 → Result
  | .nop, [] => goOn state (state.ip + 1) 1
  | .add, [d, l, r] => assign state d (sum (register state l) (register state r)) 2
  | .addi, [d, l, i] => assign state d (sum (register state l) i) 2
  | .sub, [d, l, r] => assign state d (difference (register state l) (register state r)) 2
  | .subi, [d, l, i] => assign state d (difference (register state l) i) 2
  | .shr, [d, l, r] => assign state d (shifted (register state l) (register state r)) 2
  | .shri, [d, l, i] => assign state d (shifted (register state l) i) 2
  | .xor, [d, l, r] => assign state d (exclusive (register state l) (register state r)) 2
  | .xori, [d, l, i] => assign state d (exclusive (register state l) i) 2
  | .ld, [d, a] => load state d (register state a)
  | .lda, [d, i] => load state d i
  | .st, [s, a] => store state (register state a) (register state s)
  | .sta, [s, i] => store state i (register state s)
  | .ldi, [d, i] => assign state d i 1
  | .input, [d] => receive state d
  | .output, [s] => send state (lowByte (register state s))
  | .beq, [l, r, i] => branch state (fun x y => x = y) l r i
  | .bne, [l, r, i] => branch state (fun x y => x ≠ y) l r i
  | .blt, [l, r, i] => branch state (fun x y => x < y) l r i
  | .ble, [l, r, i] => branch state (fun x y => x ≤ y) l r i
  | .bgt, [l, r, i] => branch state (fun x y => x > y) l r i
  | .bge, [l, r, i] => branch state (fun x y => x ≥ y) l r i
  | .hlt, [] => (.ok false, { state with status := .halted })
  | _, _ => (.ok false, state)

/-! ## Checks before an operation -/

/-- The step limit, where it refuses an operation. Halting is never refused. -/
def exceeded? (op : Op) : Option Nat :=
  if op = .hlt then none else state.config.stepLimit.filter (· ≤ state.instructions)

/-- The operation of a code. The codes count the operations of the catalog from zero on. -/
def operation? (code : Int32) : Option Op :=
  if 0 ≤ code.toInt then Op.all[code.toInt.toNat]? else none

/-- The first operand that should name one of the eight registers and does not. -/
def invalid? (kinds : List OperandKind) (args : List Int32) : Option Int32 :=
  ((kinds.zip args).find? fun (kind, code) =>
    kind = .register ∧ ¬(0 ≤ code.toInt ∧ code.toInt < 8)).map (·.2)

/-- Checks a word and carries it out. -/
def perform (word : Word) : Result :=
  match operation? word.opcode with
  | none => (.error (.unknownOpcode word.opcode state.ip), state)
  | some op =>
    if word.args.length ≠ op.arity then
      (.error (.argumentCount op state.ip op.arity word.args.length), state)
    else
      match exceeded? state op with
      | some limit => (.error (.stepLimitExceeded limit), state)
      | none =>
        match invalid? op.kinds word.args with
        | some code => (.error (.invalidRegister code), state)
        | none => operate state op word.args

/-- A step of a running machine performs the word at the instruction pointer, or ends the run when
there is no such word in the program. A machine that has stopped stays as it is. -/
def step : Result :=
  if state.status ≠ .running then (.ok false, state)
  else
    match (state.memory.take state.programLength)[state.ip]? with
    | none => (.ok false, { state with status := .ended })
    | some word => perform state word

end

/-! ## Values agree -/

theorem sum_eq (left right : Int32) : sum left right = left + right := by
  simp [sum, Int32.ofInt_add, Int32.ofInt_toInt]

theorem difference_eq (left right : Int32) : difference left right = left - right := by
  simp [difference, Int32.ofInt_sub, Int32.ofInt_toInt]

theorem size_eq : (UInt32.size : Int) = 4294967296 := rfl

theorem unsigned_eq (value : Int32) : unsigned value = value.toUInt32.toNat := by
  have signed : value.toInt = Int.bmod value.toUInt32.toNat UInt32.size := by
    rw [← Int32.toInt_toBitVec, BitVec.toInt_eq_toNat_bmod]
    rfl
  have bound := value.toUInt32.toNat_lt_size
  rw [unsigned, signed, Int.bmod_emod, Int.emod_eq_of_lt (Int.natCast_nonneg _)]
  · exact Int.toNat_natCast _
  · exact Int.ofNat_lt.2 bound

theorem ofNat_toNat (word : UInt32) : Int32.ofNat word.toNat = word.toInt32 :=
  congrArg UInt32.toInt32 UInt32.ofNat_toNat

theorem shifted_eq (left right : Int32) :
    shifted left right = (left.toUInt32 >>> right.toUInt32).toInt32 := by
  have amount : (right.toInt % 32).toNat = right.toUInt32.toNat % 32 := by
    have := unsigned_eq right
    rw [unsigned, size_eq] at this
    omega
  rw [← ofNat_toNat, UInt32.toNat_shiftRight, Nat.shiftRight_eq_div_pow, shifted, unsigned_eq,
    amount]
  rfl

theorem exclusive_eq (left right : Int32) : exclusive left right = left ^^^ right := by
  rw [exclusive, unsigned_eq, unsigned_eq, ← UInt32.toNat_xor, ofNat_toNat]
  rfl

theorem lowByte_eq (value : Int32) : lowByte value = DataPath.lowByte value := by
  rw [lowByte, unsigned_eq, DataPath.lowByte]
  apply UInt8.toNat_inj.1
  simp

theorem beq_holds (left right : Int32) :
    Op.beq.holds left right = decide (left.toInt = right.toInt) := by
  simp [Op.holds, Int32.toInt_inj, Bool.beq_eq_decide_eq]

theorem bne_holds (left right : Int32) :
    Op.bne.holds left right = decide (left.toInt ≠ right.toInt) := by
  simp [Op.holds, Int32.toInt_inj, bne, Bool.beq_eq_decide_eq]

theorem blt_holds (left right : Int32) :
    Op.blt.holds left right = decide (left.toInt < right.toInt) := by
  simp [Op.holds, Int32.lt_iff_toInt_lt]

theorem ble_holds (left right : Int32) :
    Op.ble.holds left right = decide (left.toInt ≤ right.toInt) := by
  simp [Op.holds, Int32.le_iff_toInt_le]

theorem bgt_holds (left right : Int32) :
    Op.bgt.holds left right = decide (left.toInt > right.toInt) := by
  simp [Op.holds, Int32.lt_iff_toInt_lt]

theorem bge_holds (left right : Int32) :
    Op.bge.holds left right = decide (left.toInt ≥ right.toInt) := by
  simp [Op.holds, Int32.le_iff_toInt_le]

end InstructionTable

end TickMachine
