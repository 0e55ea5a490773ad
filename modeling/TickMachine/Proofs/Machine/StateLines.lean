import TickMachine.Machine.StateLine
import TickMachine.Proofs.Machine.Memory
import TickMachine.Proofs.Machine.RunsBySteps
import TickMachine.Proofs.Program.Listings
import TickMachine.Proofs.Text.Words

/-! # State lines tell machines apart

The numbers of a state line are words of their own, however wide they are, so that each of them can
be read off the line. Behind them stands the word to be executed next. Its text starts neither like
the mark of a machine that has left its program nor like the reason why a word has no text, and
different reasons have different messages. A line determines what it shows of the machine, then, and
nothing else goes into it. -/

namespace TickMachine

/-! ## Messages -/

theorem isWord_of_identifier {text : String} (identifier : Lexer.Identifier text.toList) :
    Text.IsWord text where
  filled := fun nothing => Lexer.name_ne_nil identifier (String.toList_eq_nil_iff.2 nothing)
  plain := fun c member => Text.isGap_of_inside rfl rfl (identifier.symbols c member)

namespace DisassemblyError

theorem words_unknownOpcode (opcode : Int32) :
    Text.words (unknownOpcode opcode).message = ["unknown", "opcode", Decimal.ofInt32 opcode] := by
  have front : "unknown opcode " = "unknown opcode" ++ " " := rfl
  show Text.words ("unknown opcode " ++ Decimal.ofInt32 opcode) = _
  rw [front, Text.words_blank, Text.words_of_isWord (isWord_ofInt32 opcode)]
  rfl

theorem words_unknownRegister (code : Int32) :
    Text.words (unknownRegister code).message =
      ["register", "with", "code", Decimal.ofInt32 code, "doesn't", "exist"] := by
  have front : "register with code " = "register with code" ++ " " := rfl
  have back : " doesn't exist" = " " ++ "doesn't exist" := rfl
  show Text.words ("register with code " ++ Decimal.ofInt32 code ++ " doesn't exist") = _
  rw [front, back, ← String.append_assoc, Text.words_blank, Text.words_blank,
    Text.words_of_isWord (isWord_ofInt32 code)]
  rfl

theorem words_argumentCount (op : Op) (expected got : Nat) :
    Text.words (argumentCount op expected got).message =
      ["unexpected", "number", "of", "arguments", "for", op.mnemonic ++ ":", "expected",
        Decimal.ofNat expected ++ ",", "got", Decimal.ofNat got] := by
  have text : (argumentCount op expected got).message =
      "unexpected number of arguments for" ++ " " ++ (op.mnemonic ++ ":") ++ " " ++ "expected" ++
        " " ++ (Decimal.ofNat expected ++ ",") ++ " " ++ "got" ++ " " ++ Decimal.ofNat got := by
    have first : "unexpected number of arguments for " =
      "unexpected number of arguments for" ++ " " := rfl
    have second : ": expected " = ":" ++ " " ++ "expected" ++ " " := rfl
    have third : ", " = "," ++ " " := rfl
    have fourth : "got " = "got" ++ " " := rfl
    show "unexpected number of arguments for " ++ op.mnemonic ++ ": expected " ++
      Decimal.ofNat expected ++ ", " ++ ("got " ++ Decimal.ofNat got) = _
    simp only [first, second, third, fourth, String.append_assoc]
  have named : Text.IsWord (op.mnemonic ++ ":") :=
    (isWord_of_identifier (identifier_mnemonic op)).append (Text.isWord_of_any (by decide) rfl)
  have number : Text.IsWord (Decimal.ofNat expected ++ ",") :=
    (isWord_ofNat expected).append (Text.isWord_of_any (by decide) rfl)
  simp only [text, Text.words_blank, Text.words_of_isWord named, Text.words_of_isWord number,
    Text.words_of_isWord (isWord_ofNat got)]
  rfl

/-- Different errors have different messages. -/
theorem message_inj {left right : DisassemblyError} :
    left.message = right.message ↔ left = right := by
  refine ⟨fun same => ?_, congrArg message⟩
  have words := congrArg Text.words same
  cases left <;> cases right <;>
    simp only [words_unknownOpcode, words_unknownRegister, words_argumentCount, List.cons.injEq,
      true_and, and_true, String.append_left_inj, reduceCtorEq, and_false] at words
  case unknownOpcode.unknownOpcode => rw [Decimal.ofInt32_inj.1 words]
  case unknownRegister.unknownRegister => rw [Decimal.ofInt32_inj.1 words]
  case argumentCount.argumentCount =>
    obtain ⟨named, expected, got⟩ := words
    rw [Op.mnemonic_inj.1 named, Decimal.ofNat_inj.1 expected, Decimal.ofNat_inj.1 got]

theorem message_ne_end (error : DisassemblyError) : error.message ≠ "end" := by
  intro same
  have words := congrArg Text.words same
  have single : Text.words "end" = ["end"] := rfl
  cases error <;>
    simp only [words_unknownOpcode, words_unknownRegister, words_argumentCount, single,
      List.cons.injEq, reduceCtorEq, and_false] at words

end DisassemblyError

namespace StateLine

open Text (words IsWord)

/-! ## The columns -/

/-- The names of the columns of a line and the numbers in them. -/
def columns (machine : Machine) : List (String × String) :=
  [("TICK", Decimal.ofNat machine.ticks), ("IP", Decimal.ofNat machine.ip),
      ("ADDR", Decimal.ofInt32 machine.path.dataAddress), ("MEM", memory machine)] ++
    Register.all.map fun register =>
      (register.name, Decimal.ofInt32 (machine.register register))

theorem length_columns (machine : Machine) : (columns machine).length = 12 := rfl

/-- The least widths of the numbers. -/
def widths : List Nat := [4, 3, 3, 6] ++ Register.all.map fun _ => 4

/-- The texts of columns. -/
def texts (widths : List Nat) (columns : List (String × String)) : List String :=
  List.zipWith (fun width (name, number) => name ++ "=" ++ column width number) widths columns

/-- The words of columns. -/
def columnWords (columns : List (String × String)) : List String :=
  columns.flatMap fun (name, number) => [name, number]

theorem stateLine_eq (machine : Machine) :
    machine.stateLine =
      " ".intercalate (texts widths (columns machine)) ++ " " ++ word machine := by
  have line : machine.stateLine =
      " ".intercalate (texts widths (columns machine) ++ [word machine]) := rfl
  have filled : texts widths (columns machine) ≠ [] := List.cons_ne_nil _ _
  rw [line, String.intercalate_append_of_ne_nil filled (List.cons_ne_nil _ _),
    String.intercalate_singleton]

theorem words_column {name number : String} (named : IsWord name) (numeric : IsWord number)
    (width : Nat) : words (name ++ "=" ++ column width number) = [name, number] := by
  rw [Text.words_equals, column, Text.words_padLeft, Text.words_of_isWord named,
    Text.words_of_isWord numeric]
  rfl

/-- The words of columns do not depend on their widths. -/
theorem words_texts {widths : List Nat} {columns : List (String × String)}
    (enough : columns.length ≤ widths.length)
    (each : ∀ column ∈ columns, IsWord column.1 ∧ IsWord column.2) :
    (texts widths columns).flatMap words = columnWords columns := by
  induction columns generalizing widths with
  | nil => simp [texts, columnWords]
  | cons column columns ih =>
    cases widths with
    | nil => cases enough
    | cons width widths =>
      obtain ⟨⟨named, numeric⟩, others⟩ := List.forall_mem_cons.1 each
      have rest := ih (Nat.le_of_succ_le_succ enough) others
      simp only [texts, columnWords, List.zipWith_cons_cons, List.flatMap_cons] at rest ⊢
      rw [words_column named numeric, rest]

theorem isWord_memory (machine : Machine) : IsWord (memory machine) := by
  unfold memory
  split
  · exact isWord_ofInt32 _
  · exact Text.isWord_of_any (by decide) rfl

theorem isWord_columns (machine : Machine) :
    ∀ column ∈ columns machine, IsWord column.1 ∧ IsWord column.2 := by
  have tick : IsWord "TICK" := Text.isWord_of_any (by decide) rfl
  have ip : IsWord "IP" := Text.isWord_of_any (by decide) rfl
  have address : IsWord "ADDR" := Text.isWord_of_any (by decide) rfl
  have cell : IsWord "MEM" := Text.isWord_of_any (by decide) rfl
  refine List.forall_mem_append.2 ⟨?_, List.forall_mem_map.2 fun register _ => ?_⟩
  · simp only [List.forall_mem_cons]
    exact ⟨⟨tick, isWord_ofNat _⟩, ⟨ip, isWord_ofNat _⟩, ⟨address, isWord_ofInt32 _⟩,
      ⟨cell, isWord_memory machine⟩, List.forall_mem_nil _⟩
  · exact ⟨isWord_of_identifier (identifier_register register), isWord_ofInt32 _⟩

/-- The names and the numbers of the columns are words of the line, whatever their widths are. -/
theorem words_stateLine (machine : Machine) :
    words machine.stateLine = columnWords (columns machine) ++ words (word machine) := by
  have enough : (columns machine).length ≤ widths.length := by
    rw [length_columns]
    exact Nat.le_refl 12
  rw [stateLine_eq, Text.words_blank, Text.words_intercalate,
    words_texts enough (isWord_columns machine)]

theorem length_columnWords (columns : List (String × String)) :
    (columnWords columns).length = 2 * columns.length := by
  induction columns with
  | nil => rfl
  | cons column columns ih =>
    simp only [columnWords, List.flatMap_cons, List.length_append, List.length_cons,
      List.length_nil] at ih ⊢
    omega

theorem columnWords_inj {left right : List (String × String)} :
    columnWords left = columnWords right ↔ left = right := by
  refine ⟨fun same => ?_, congrArg columnWords⟩
  induction left generalizing right with
  | nil =>
    cases right with
    | nil => rfl
    | cons column columns => cases same
  | cons column columns ih =>
    cases right with
    | nil => cases same
    | cons other others =>
      simp only [columnWords, List.flatMap_cons, List.cons_append, List.nil_append,
        List.cons.injEq] at same
      obtain ⟨name, number, rest⟩ := same
      rw [Prod.ext name number, ih rest]

/-- The number in the column of the cell, which is a dash where there is no cell. -/
theorem readInt32?_memory (machine : Machine) :
    Decimal.readInt32? (memory machine).toList =
      (machine.path.memory.read machine.path.dataAddress).toOption := by
  unfold memory
  split
  · next value found =>
    rw [Decimal.readInt32?_ofInt32, found]
    rfl
  · next fault missing =>
    rw [missing]
    rfl

/-! ## The word to be executed next -/

/-- What stands behind the columns: the text of the word, the reason why it has none, or the mark of
a machine that has left its program. -/
def shown : Option (Except DisassemblyError String) → String
  | none => "<end>"
  | some (.ok text) => text
  | some (.error error) => "<" ++ error.message ++ ">"

theorem word_eq (machine : Machine) :
    word machine = shown (machine.fetch?.map Word.disassemble) := by
  unfold word Machine.fetch?
  split
  · cases machine.path.memory.word? machine.ip with
    | none => rfl
    | some word =>
      simp only [Option.map_some]
      cases word.disassemble <;> rfl
  · rfl

/-- Texts of words start neither with the mark nor with a reason. -/
def Unmarked (next : Option (Except DisassemblyError String)) : Prop :=
  ∀ text, next = some (.ok text) → ∀ rest, text ≠ "<" ++ rest

theorem unmarked_disassemble (word : Option Word) : Unmarked (word.map Word.disassemble) := by
  intro text written rest marked
  obtain ⟨word, -, written⟩ := Option.map_eq_some_iff.1 written
  have start : ∃ c behind, text.toList = c :: behind ∧ c ≠ '<' := by
    cases word with
    | data value =>
      cases written
      obtain ⟨c, behind, parts, numeric⟩ := Json.integer_start value.toInt
      refine ⟨c, behind, parts, ?_⟩
      rintro rfl
      rcases numeric with sign | digit
      · cases sign
      · cases digit
    | command opcode args =>
      obtain ⟨c, behind, parts, start⟩ := Disassembly.command_start written
      exact ⟨c, behind, parts, Lexer.ne_of_isStart start rfl⟩
  obtain ⟨c, behind, parts, other⟩ := start
  rw [marked, String.toList_append] at parts
  exact other (List.cons.inj parts).1.symm

/-- What is shown of different words is different. -/
theorem shown_inj {left right : Option (Except DisassemblyError String)} (plain : Unmarked left)
    (plain' : Unmarked right) : shown left = shown right ↔ left = right := by
  refine ⟨fun same => ?_, congrArg shown⟩
  have ended (error : DisassemblyError) : "<end>" ≠ "<" ++ error.message ++ ">" := by
    have mark : "<end>" = "<" ++ "end" ++ ">" := rfl
    rw [mark, ne_eq, String.append_left_inj, String.append_right_inj]
    exact error.message_ne_end.symm
  match left, right with
  | none, none => rfl
  | none, some (.ok text) => exact absurd same.symm (plain' text rfl "end>")
  | none, some (.error error) => exact absurd same (ended error)
  | some (.ok text), none => exact absurd same (plain text rfl "end>")
  | some (.ok text), some (.ok text') => exact congrArg (some ∘ Except.ok) same
  | some (.ok text), some (.error error) =>
    rw [shown, shown, String.append_assoc] at same
    exact absurd same (plain text rfl _)
  | some (.error error), none => exact absurd same.symm (ended error)
  | some (.error error), some (.ok text) =>
    rw [shown, shown, String.append_assoc] at same
    exact absurd same.symm (plain' text rfl _)
  | some (.error error), some (.error error') =>
    rw [shown, shown, String.append_left_inj, String.append_right_inj] at same
    rw [DisassemblyError.message_inj.1 same]

/-! ## Lines -/

/-- A line is its columns and the word behind them. -/
theorem stateLine_inj {left right : Machine} :
    left.stateLine = right.stateLine ↔
      columns left = columns right ∧
        left.fetch?.map Word.disassemble = right.fetch?.map Word.disassemble := by
  constructor
  · intro same
    have words := congrArg words same
    rw [words_stateLine, words_stateLine] at words
    have length : (columnWords (columns left)).length = (columnWords (columns right)).length := by
      rw [length_columnWords, length_columnWords, length_columns, length_columns]
    have columns := columnWords_inj.1 (List.append_inj_left words length)
    rw [stateLine_eq, stateLine_eq, columns, String.append_right_inj, word_eq, word_eq,
      shown_inj (unmarked_disassemble _) (unmarked_disassemble _)] at same
    exact ⟨columns, same⟩
  · rintro ⟨columns, next⟩
    rw [stateLine_eq, stateLine_eq, columns, word_eq, word_eq, next]

end StateLine

namespace Machine

/-- Two machines of which a state line shows the same. -/
structure LooksAlike (left right : Machine) : Prop where
  ticks : left.ticks = right.ticks
  ip : left.ip = right.ip
  dataAddress : left.path.dataAddress = right.path.dataAddress
  register (register : Register) : left.register register = right.register register
  /-- A load at the data address finds the same number, or there is no such cell in both. -/
  cell : left.path.memory.read left.path.dataAddress = right.path.memory.read right.path.dataAddress
  /-- No word is executed next in both, or the words have the same text, or they have none for the
  same reason. -/
  next : left.fetch?.map Word.disassemble = right.fetch?.map Word.disassemble

theorem stateLine_eq_iff {left right : Machine} :
    left.stateLine = right.stateLine ↔ LooksAlike left right := by
  rw [StateLine.stateLine_inj]
  constructor
  · rintro ⟨columns, next⟩
    simp only [StateLine.columns, List.cons_append, List.nil_append, List.cons.injEq,
      Prod.mk.injEq, true_and, Decimal.ofNat_inj, Decimal.ofInt32_inj, List.map_inj_left] at columns
    obtain ⟨ticks, ip, address, memory, registers⟩ := columns
    refine ⟨ticks, ip, address, fun register => registers register (Register.mem_all register),
      ?_, next⟩
    have cell := congrArg (fun text => Decimal.readInt32? text.toList) memory
    simp only [StateLine.readInt32?_memory, address] at cell
    rw [address]
    exact Memory.read_eq_of_toOption cell
  · intro alike
    refine ⟨?_, alike.next⟩
    have registers : (Register.all.map fun register =>
        (register.name, Decimal.ofInt32 (left.register register))) =
        Register.all.map fun register =>
          (register.name, Decimal.ofInt32 (right.register register)) := by
      simp only [alike.register]
    rw [StateLine.columns, StateLine.columns, registers, alike.ticks, alike.ip, StateLine.memory,
      StateLine.memory, alike.cell, alike.dataAddress]

/-- A state line tells machines apart by all that it shows. Two machines have the same line exactly
when their counters, their data addresses and all of their registers are the same, the cells at the
data address hold the same number or there is no such cell in both, and the word to be executed next
has the same text, has none for the same reason, or is missing in both. It is missing where the
machine has left its program, since memory holds the whole program after any calls. The numbers of a
line are words of their own, however wide they are. -/
theorem state_lines_tell_apart :
    (∀ left right : Machine, left.stateLine = right.stateLine ↔ LooksAlike left right) ∧
    (∀ left right : Machine, left.HoldsProgram → right.HoldsProgram →
      left.stateLine = right.stateLine →
        (left.programLength ≤ left.ip ↔ right.programLength ≤ right.ip)) ∧
    (∀ executable input config origins machine,
      Calls (load executable input config) origins machine → machine.HoldsProgram) ∧
    ∀ machine : Machine, Text.words machine.stateLine =
      ["TICK", Decimal.ofNat machine.ticks, "IP", Decimal.ofNat machine.ip,
        "ADDR", Decimal.ofInt32 machine.path.dataAddress, "MEM", StateLine.memory machine] ++
      (Register.all.flatMap fun register =>
        [register.name, Decimal.ofInt32 (machine.register register)]) ++
      Text.words (StateLine.word machine) := by
  refine ⟨fun left right => stateLine_eq_iff, ?ends, ?holds, ?columns⟩
  case ends =>
    intro left right holds holds' same
    have next := (stateLine_eq_iff.1 same).next
    rw [← fetch?_eq_none_iff holds, ← fetch?_eq_none_iff holds', ← Option.map_eq_none_iff, next,
      Option.map_eq_none_iff]
  case holds =>
    intro executable input config origins machine made
    exact holdsProgram_of_calls (holdsProgram_load executable input config) made
  case columns =>
    intro machine
    rw [StateLine.words_stateLine]
    rfl

/-- Two machines with different inputs behind a load from an address that does not exist. The
address and a register are wider than their columns. -/
theorem state_lines_tell_apart_wide :
    let program : Executable := ⟨0, [.command 11 [0, -2147483648], .command 12 [1, -70000]]⟩
    let left := (load program [1] {}).after 2
    let right := (load program [2] ⟨5, some 9⟩).after 2
    left ≠ right ∧ left.HoldsProgram ∧ right.HoldsProgram ∧ left.stateLine = right.stateLine ∧
      LooksAlike left right ∧ (left.programLength ≤ left.ip ↔ right.programLength ≤ right.ip) := by
  intro program left right
  have holds : left.HoldsProgram := (holdsProgram_load program _ _).of_keeps (keeps_after _ 2)
  have holds' : right.HoldsProgram := (holdsProgram_load program _ _).of_keeps (keeps_after _ 2)
  have same : left.stateLine = right.stateLine := by decide +kernel
  exact ⟨by decide +kernel, holds, holds', same, (state_lines_tell_apart.1 left right).1 same,
    state_lines_tell_apart.2.1 left right holds holds' same⟩

end Machine

end TickMachine
