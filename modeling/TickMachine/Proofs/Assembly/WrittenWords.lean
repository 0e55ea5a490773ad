import TickMachine.Proofs.Assembly.FirstPass
import TickMachine.Proofs.Program.CommandTexts
import TickMachine.Proofs.Source.Rendering

/-! # Words written as lines

The disassembly of a word is a line that the lexer can read, and the item that its tokens give is
the word itself, with nothing left to resolve. -/

namespace TickMachine

open Lexer (Spelling Line Spelled Identifier Numeral)

/-! ## Numbers and names -/

/-- The text of a machine value is a numeral. -/
theorem numeral_ofInt32 (value : Int32) :
    ∃ sign digits, (Decimal.ofInt32 value).toList = sign ++ digits ∧ Numeral sign digits := by
  have decimal : ∀ n, ∀ c ∈ Decimal.digits n, c.isDigit = true := fun n c => Decimal.isDigit_of_mem
  unfold Decimal.ofInt32
  rcases Int.eq_nat_or_neg value.toInt with ⟨n, positive | negative⟩
  · rw [positive, Decimal.toList_ofInt_ofNat]
    exact ⟨[], _, rfl, .inl rfl, decimal n, Decimal.digits_ne_nil n⟩
  · cases n with
    | zero =>
      rw [negative]
      exact ⟨[], _, rfl, .inl rfl, decimal 0, Decimal.digits_ne_nil 0⟩
    | succ n =>
      rw [negative, Decimal.toList_ofInt_neg _ (Nat.succ_pos n)]
      exact ⟨['-'], _, rfl, .inr ⟨'-', rfl, rfl⟩, decimal _, Decimal.digits_ne_nil _⟩

theorem spelled_ofInt32 (value : Int32) :
    Spelled .number (Decimal.ofInt32 value) (Decimal.ofInt32 value).toList := by
  obtain ⟨sign, digits, text, numeral⟩ := numeral_ofInt32 value
  have spelled := Spelled.number numeral
  rwa [← text, String.ofList_toList] at spelled

theorem identifier_register (register : Register) : Identifier register.name.toList := by
  cases register <;> exact ⟨⟨_, _, rfl, rfl⟩, List.all_eq_true.1 (by decide +kernel)⟩

theorem identifier_mnemonic (op : Op) : Identifier op.mnemonic.toList := by
  cases op <;> exact ⟨⟨_, _, rfl, rfl⟩, List.all_eq_true.1 (by decide +kernel)⟩

theorem identifier_dataMnemonic : Identifier dataMnemonic.toList :=
  ⟨⟨_, _, rfl, rfl⟩, List.all_eq_true.1 (by decide +kernel)⟩

theorem spelled_register (register : Register) :
    Spelled .register register.name register.text.toList := by
  have spelled := Spelled.register (identifier_register register)
  rw [String.ofList_toList] at spelled
  rw [Register.text, String.toList_append]
  exact spelled

/-! ## Operands -/

/-- An argument as which an operand has been written: wherever it stands, it is read as the
operand. -/
structure Writes (op : Op) (kind : OperandKind) (value : Int32) (argument : Spelling) : Prop where
  spelled : Spelled argument.kind argument.value argument.text
  read : ∀ token : Token, token.content = argument.content →
    Item.readOperand op kind token = .ok (.literal value)

theorem writes_of_operand (op : Op) {kind : OperandKind} {value : Int32} {text : String}
    (h : Disassembly.operand kind value = .ok text) :
    ∃ argument, argument.text = text.toList ∧ Writes op kind value argument := by
  cases kind with
  | register =>
    unfold Disassembly.operand Disassembly.register at h
    cases named : Register.ofCode? value with
    | none => simp [named] at h
    | some register =>
      simp only [named, Except.ok.injEq] at h
      obtain rfl := Register.ofCode?_eq_some_iff.1 named
      subst h
      refine ⟨⟨.register, register.name, register.text.toList⟩, rfl, spelled_register register, ?_⟩
      intro token same
      have kind : token.kind = .register := congrArg Prod.fst same
      have name : token.value = register.name := congrArg Prod.snd same
      simp only [Item.readOperand, kind, name, Register.ofName?_name]
  | immediate =>
    cases h
    refine ⟨⟨.number, Decimal.ofInt32 value, (Decimal.ofInt32 value).toList⟩, rfl,
      spelled_ofInt32 value, ?_⟩
    intro token same
    have kind : token.kind = .number := congrArg Prod.fst same
    have number : token.value = Decimal.ofInt32 value := congrArg Prod.snd same
    simp only [Item.readOperand, Item.readNumber, kind, number, Decimal.readInt32?_ofInt32,
      Except.map]

/-- Arguments as which operands have been written. -/
structure WritesAll (op : Op) (kinds : List OperandKind) (values : List Int32)
    (arguments : List Spelling) : Prop where
  spelled : ∀ argument ∈ arguments, Spelled argument.kind argument.value argument.text
  read : ∀ tokens : List Token, tokens.map Token.content = arguments.map Spelling.content →
    ∀ rest, Item.readOperands op kinds (tokens ++ rest) = .ok (values.map .literal, rest)

theorem writesAll_of_operands (op : Op) {kinds : List OperandKind} {values : List Int32}
    {texts : List String} (length : values.length = kinds.length)
    (h : Disassembly.operands kinds values = .ok texts) :
    ∃ arguments, arguments.map Spelling.text = texts.map String.toList ∧
      WritesAll op kinds values arguments := by
  induction kinds generalizing values texts with
  | nil =>
    obtain rfl := List.length_eq_zero_iff.1 length
    cases h
    refine ⟨[], rfl, fun _ member => absurd member List.not_mem_nil, ?_⟩
    intro tokens same rest
    obtain rfl := List.map_eq_nil_iff.1 same
    rw [List.nil_append, Item.readOperands]
    rfl
  | cons kind kinds ih =>
    cases values with
    | nil => cases length
    | cons value values =>
      rw [Disassembly.operands] at h
      obtain ⟨text, first, h⟩ := bind_ok h
      obtain ⟨behind, others, h⟩ := bind_ok h
      cases h
      obtain ⟨argument, same, writes⟩ := writes_of_operand op first
      obtain ⟨arguments, sames, writesOthers⟩ := ih (Nat.succ.inj length) others
      refine ⟨argument :: arguments, by rw [List.map_cons, List.map_cons, same, sames], ?_, ?_⟩
      · intro other member
        rcases List.mem_cons.1 member with rfl | member
        · exact writes.spelled
        · exact writesOthers.spelled other member
      · intro tokens contents rest
        obtain ⟨token, tokens, rfl, content, contents⟩ := List.map_eq_cons_iff.1 contents
        rw [List.cons_append, Item.readOperands, writes.read token content]
        simp only [writesOthers.read tokens contents rest, List.map_cons]

/-! ## Lines -/

/-- The item of a line: wherever the line stands, its tokens are read as the item. -/
structure Lexer.Line.Gives (line : Line) (item : Item) : Prop where
  readable : line.Readable
  read : ∀ position, ∃ head arguments, line.tokens position = head :: arguments ∧
    head.isArgument = false ∧ ∀ rest, Text.Ends Token.isArgument rest →
      Item.read head (arguments ++ rest) = .ok (item, rest)

theorem gives_label {name : List Char} (identifier : Identifier name) :
    (Line.label name).Gives (.label (String.ofList name)) := by
  refine ⟨identifier, fun position => ⟨_, [], rfl, rfl, ?_⟩⟩
  intro rest _
  rfl

theorem gives_command {op : Op} {values : List Int32} {arguments : List Spelling}
    (writes : WritesAll op op.kinds values arguments) :
    (Line.instruction op.mnemonic.toList arguments).Gives
      (.instruction op (values.map .literal)) := by
  refine ⟨⟨identifier_mnemonic op, writes.spelled⟩, ?_⟩
  intro position
  obtain ⟨tokens, text, contents⟩ := Lexer.instruction_tokens op.mnemonic.toList arguments position
  refine ⟨_, tokens, text, rfl, ?_⟩
  intro rest _
  simp only [Item.read, String.ofList_toList, mnemonic_not_data, Bool.false_eq_true, if_false,
    Op.ofMnemonic?_mnemonic, writes.read tokens contents rest]

/-- The argument of a line that places a number. -/
def numberArgument (value : Int32) : Spelling :=
  ⟨.number, Decimal.ofInt32 value, (Decimal.ofInt32 value).toList⟩

theorem readData_number (value : Int32) (position : Nat) (rest : List Token)
    (ends : Text.Ends Item.isDatum rest) :
    Item.readData (⟨.number, Decimal.ofInt32 value, position⟩ :: rest) =
      .ok ([.number value], rest) := by
  let token : Token := ⟨.number, Decimal.ofInt32 value, position⟩
  have datum : ∀ other ∈ [token], Item.isDatum other = true := by
    intro other member
    rw [List.mem_singleton.1 member]
    rfl
  have read : Item.readDatum token = .ok (.number value) := by
    simp only [Item.readDatum, Item.readNumber, token, Decimal.readInt32?_ofInt32, Except.map]
  have readAll : [token].mapM Item.readDatum = .ok [.number value] := by
    rw [List.mapM_cons, read]
    rfl
  exact Item.readData_of_all (List.cons_ne_nil _ _) datum readAll ends

theorem gives_data (value : Int32) :
    (Line.instruction dataMnemonic.toList [numberArgument value]).Gives
      (.data [.number value]) := by
  have spelled : ∀ argument ∈ [numberArgument value],
      Spelled argument.kind argument.value argument.text := by
    intro argument member
    rw [List.mem_singleton.1 member]
    exact spelled_ofInt32 value
  refine ⟨⟨identifier_dataMnemonic, spelled⟩, ?_⟩
  intro position
  let place : Nat := position + dataMnemonic.toList.length + 1
  refine ⟨_, [⟨.number, Decimal.ofInt32 value, place⟩], rfl, rfl, ?_⟩
  intro rest ends
  have named : Text.sameFolded (String.ofList dataMnemonic.toList) dataMnemonic = true := by
    decide +kernel
  simp only [Item.read, named, if_true, List.singleton_append,
    readData_number value place rest (Item.ends_isDatum ends)]

/-! ## Words -/

/-- The line that stands for a word in a source text: a command as it is, and data behind the
mnemonic that places data. -/
def Word.sourceLine (word : Word) : Except DisassemblyError String :=
  match word with
  | .data _ => word.disassemble.map fun text => dataMnemonic ++ " " ++ text
  | .command _ _ => word.disassemble

/-- A line and an item as which a word has been written. -/
structure Written (word : Word) (line : Line) (item : Item) : Prop where
  gives : line.Gives item
  words : ∃ draft, item.words = [draft] ∧ ∀ labels, DraftWord.resolve labels draft = .ok word
  unlabelled : ∀ name, item ≠ .label name

theorem mapM_resolve_literals (labels : LabelTable) (values : List Int32) :
    (values.map Operand.literal).mapM (Operand.resolve labels) = .ok values := by
  induction values with
  | nil => rfl
  | cons value values ih =>
    rw [List.map_cons, List.mapM_cons, ih]
    rfl

theorem written_command {op : Op} {values : List Int32} {arguments : List Spelling}
    (writes : WritesAll op op.kinds values arguments) :
    Written (.command op.code values) (.instruction op.mnemonic.toList arguments)
      (.instruction op (values.map .literal)) := by
  refine ⟨gives_command writes, ⟨_, rfl, fun labels => ?_⟩, fun name same => by cases same⟩
  rw [DraftWord.resolve, mapM_resolve_literals]
  rfl

theorem written_data (value : Int32) :
    Written (.data value) (.instruction dataMnemonic.toList [numberArgument value])
      (.data [.number value]) :=
  ⟨gives_data value, ⟨_, rfl, fun _ => rfl⟩, fun _ same => by cases same⟩

/-- A word that can be disassembled is written as the line of its disassembly. -/
theorem written_of_sourceLine {word : Word} {text : String} (h : word.sourceLine = .ok text) :
    ∃ line item, line.text = text.toList ∧ Written word line item := by
  cases word with
  | data value =>
    cases h
    refine ⟨_, _, ?_, written_data value⟩
    simp [Line.text, numberArgument, Lexer.followers, Disassembly.immediate]
  | command opcode values =>
    obtain ⟨op, texts, rfl, length, operands, parts⟩ := Disassembly.command_ok h
    obtain ⟨arguments, same, writes⟩ := writesAll_of_operands op length operands
    refine ⟨_, _, ?_, written_command writes⟩
    rcases parts with ⟨rfl, rfl⟩ | ⟨filled, rfl⟩
    · obtain rfl := List.map_eq_nil_iff.1 same
      rfl
    · cases arguments with
      | nil => exact absurd (List.map_eq_nil_iff.1 same.symm) filled
      | cons argument arguments =>
        rw [Line.text, ← Lexer.intercalate_followers, same, String.toList_append,
          String.toList_append, String.toList_intercalate]
        simp

end TickMachine
