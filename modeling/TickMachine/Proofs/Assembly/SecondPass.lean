import TickMachine.Proofs.Assembly.FirstPass
import TickMachine.Proofs.Assembly.Layout
import TickMachine.Proofs.Source.Transitions

/-! # The second pass

A second pass that succeeds puts in the place of each item the words that its part dictates, so that
the executable follows the layout of the source. -/

namespace TickMachine

/-! ## Forms of parts -/

/-- What a part can be, for each kind of item that it gives. -/
inductive Part.Form (part : Part) : Item → Prop
  | label (kind : part.head.kind = .label) (bare : part.arguments = []) :
    Form part (.label part.head.value)
  | data {found : List Datum} (kind : part.head.kind = .instruction) (data : part.isData = true)
    (read : Item.readData part.arguments = .ok (found, [])) : Form part (.data found)
  | instruction {op : Op} {operands : List Operand} (kind : part.head.kind = .instruction)
    (command : part.isData = false) (named : Op.ofMnemonic? part.head.value = some op)
    (read : Item.readOperands op op.kinds part.arguments = .ok (operands, [])) :
    Form part (.instruction op operands)

theorem form_of_gives {part : Part} {item : Item} (gives : part.Gives item) : part.Form item := by
  unfold Part.Gives Item.read at gives
  split at gives
  · next kind =>
    obtain ⟨rfl, bare⟩ := Prod.mk.inj (Except.ok.inj gives)
    exact .label kind bare
  · next kind =>
    split at gives
    · next data =>
      split at gives
      · cases gives
      · next read =>
        cases gives
        exact .data kind data read
    · next command =>
      split at gives
      · cases gives
      · next named =>
        split at gives
        · cases gives
        · next read =>
          cases gives
          exact .instruction kind (Bool.eq_false_iff.2 command) named read
  · cases gives

/-! ## Sizes of items -/

theorem readData_all {tokens : List Token} {data : List Datum}
    (h : Item.readData tokens = .ok (data, [])) :
    (∀ token ∈ tokens, Item.isDatum token = true) ∧ tokens.mapM Item.readDatum = .ok data := by
  rcases front : tokens.takeWhile Item.isDatum with _ | ⟨first, others⟩
  · unfold Item.readData at h
    rw [front] at h
    cases tokens <;> cases h
  · rw [Item.readData_of_takeWhile front] at h
    obtain ⟨found, read, same⟩ := map_ok h
    obtain ⟨rfl, nothing⟩ := Prod.mk.inj same
    have whole : tokens.takeWhile Item.isDatum = tokens := by
      have split := List.takeWhile_append_dropWhile (p := Item.isDatum) (l := tokens)
      rwa [nothing, List.append_nil] at split
    rw [← front, whole] at read
    refine ⟨?_, read⟩
    rw [← whole]
    exact List.all_eq_true.1 List.all_takeWhile

theorem size_of_readDatum {token : Token} {datum : Datum} (data : Item.isDatum token = true)
    (read : Item.readDatum token = .ok datum) : datum.words.length = token.size := by
  unfold Item.isDatum at data
  unfold Item.readDatum at read
  unfold Token.size
  cases kind : token.kind with
  | label | instruction | register => simp [kind] at data
  | string =>
    rw [kind] at read
    cases read
    simp [Datum.words, String.length_toList]
  | reference =>
    rw [kind] at read
    cases read
    rfl
  | number =>
    rw [kind] at read
    obtain ⟨value, -, rfl⟩ := map_ok read
    rfl

theorem size_of_readData {tokens : List Token} {found : List Datum}
    (data : ∀ token ∈ tokens, Item.isDatum token = true)
    (read : tokens.mapM Item.readDatum = .ok found) :
    (found.flatMap Datum.words).length = total Token.size tokens := by
  induction tokens generalizing found with
  | nil =>
    cases read
    rfl
  | cons token tokens ih =>
    obtain ⟨datum, others, readFirst, readOthers, rfl⟩ := mapM_cons_ok read
    rw [List.flatMap_cons, List.length_append,
      size_of_readDatum (data token List.mem_cons_self) readFirst,
      ih (fun other member => data other (List.mem_cons_of_mem _ member)) readOthers, total]

/-- The words of an item take up as much as its part. -/
theorem size_of_gives {part : Part} {item : Item} (gives : part.Gives item) :
    item.words.length = part.size := by
  unfold Part.size
  cases form_of_gives gives with
  | label kind bare =>
    simp only [kind]
    rfl
  | data kind data read =>
    obtain ⟨arguments, readAll⟩ := readData_all read
    simp only [kind, data, if_true]
    exact size_of_readData arguments readAll
  | instruction kind command named read =>
    simp only [kind, command, Bool.false_eq_true, if_false]
    rfl

theorem length_wordsOf {parts : List Part} {items : List Item} (read : Read parts items) :
    (wordsOf items).length = total Part.size parts := by
  induction read with
  | nil => rfl
  | cons first others ih =>
    rw [wordsOf, List.flatMap_cons, List.length_append, size_of_gives first, total, ← ih]
    rfl

/-! ## Resolved items -/

section

variable {labels : LabelTable}

theorem resolve_label {name : String} {value : Int32}
    (h : (Operand.label name).resolve labels = .ok value) :
    ((labels.find? name).bind fun address => Decimal.toInt32? address) = some value := by
  rw [Operand.resolve, LabelTable.address] at h
  cases found : labels.find? name with
  | none => rw [found] at h; cases h
  | some address =>
    rw [found] at h
    cases small : Decimal.toInt32? address with
    | none => simp [small] at h
    | some number =>
      simp only [small] at h
      cases h
      exact small

theorem readNumber_ok {token : Token} {value : Int32} (h : Item.readNumber token = .ok value) :
    Decimal.readInt32? token.value.toList = some value := by
  unfold Item.readNumber at h
  split at h
  · next read => cases h; exact read
  · cases h

theorem value?_of_readOperand {op : Op} {kind : OperandKind} {token : Token} {operand : Operand}
    {value : Int32} (read : Item.readOperand op kind token = .ok operand)
    (resolved : operand.resolve labels = .ok value) :
    token.value? labels.find? = some value := by
  unfold Item.readOperand at read
  unfold Token.value?
  split at read
  · next kind =>
    rw [kind]
    split at read
    · next register named =>
      cases read
      cases resolved
      simp only [named, Option.map_some]
    · cases read
  · next kind =>
    rw [kind]
    obtain ⟨found, number, rfl⟩ := map_ok read
    cases resolved
    exact readNumber_ok number
  · next kind =>
    rw [kind]
    cases read
    exact resolve_label resolved
  · cases read

theorem values?_of_readOperands {op : Op} {kinds : List OperandKind} {tokens : List Token}
    {operands : List Operand} {values : List Int32}
    (read : Item.readOperands op kinds tokens = .ok (operands, []))
    (resolved : operands.mapM (Operand.resolve labels) = .ok values) :
    tokens.mapM (Token.value? labels.find?) = some values := by
  induction kinds generalizing tokens operands values with
  | nil =>
    rw [Item.readOperands] at read
    cases read
    cases resolved
    rfl
  | cons kind kinds ih =>
    obtain ⟨token, behind, operand, others, rfl, readFirst, readOthers, rfl⟩ :=
      Item.readOperands_cons_ok read
    obtain ⟨value, rest, resolvedFirst, resolvedOthers, rfl⟩ := mapM_cons_ok resolved
    exact mapM_cons_some (value?_of_readOperand readFirst resolvedFirst)
      (ih readOthers resolvedOthers)

theorem mapM_literals (values : List Int32) :
    (values.map fun value => DraftWord.data (.literal value)).mapM (DraftWord.resolve labels) =
      .ok (values.map Word.data) := by
  induction values with
  | nil => rfl
  | cons value values ih =>
    rw [List.map_cons, List.mapM_cons, ih]
    rfl

theorem resolve_single {operand : Operand} {words : List Word}
    (h : [DraftWord.data operand].mapM (DraftWord.resolve labels) = .ok words) :
    ∃ value, operand.resolve labels = .ok value ∧ words = [.data value] := by
  obtain ⟨word, rest, resolved, nothing, rfl⟩ := mapM_cons_ok h
  cases nothing
  rw [DraftWord.resolve] at resolved
  obtain ⟨value, found, rfl⟩ := map_ok resolved
  exact ⟨value, found, rfl⟩

theorem resolve_command {op : Op} {operands : List Operand} {words : List Word}
    (h : [DraftWord.command op operands].mapM (DraftWord.resolve labels) = .ok words) :
    ∃ values, operands.mapM (Operand.resolve labels) = .ok values ∧
      words = [.command op.code values] := by
  obtain ⟨word, rest, resolved, nothing, rfl⟩ := mapM_cons_ok h
  cases nothing
  rw [DraftWord.resolve] at resolved
  obtain ⟨values, found, rfl⟩ := map_ok resolved
  exact ⟨values, found, rfl⟩

/-- An argument of a data item places the words of its datum. -/
theorem words?_of_readDatum {token : Token} {datum : Datum} {words : List Word}
    (data : Item.isDatum token = true) (read : Item.readDatum token = .ok datum)
    (resolved : datum.words.mapM (DraftWord.resolve labels) = .ok words) :
    token.words? labels.find? = some words := by
  unfold Item.isDatum at data
  unfold Item.readDatum at read
  unfold Token.words? Token.value?
  cases kind : token.kind with
  | label | instruction | register => simp [kind] at data
  | string =>
    rw [kind] at read
    cases read
    have literals : (Datum.string token.value).words =
        (token.value.toList.map (fun c : Char => Int32.ofNat c.toNat) ++ [0]).map
          fun value => DraftWord.data (.literal value) := by
      simp [Datum.words]
    rw [literals, mapM_literals] at resolved
    cases resolved
    simp
  | reference =>
    rw [kind] at read
    cases read
    obtain ⟨value, address, rfl⟩ := resolve_single resolved
    simp only [resolve_label address, Option.map_some]
  | number =>
    rw [kind] at read
    obtain ⟨found, number, rfl⟩ := map_ok read
    obtain ⟨value, literal, rfl⟩ := resolve_single resolved
    cases literal
    simp only [readNumber_ok number, Option.map_some]

theorem blocks_of_readDatum {tokens : List Token} {data : List Datum} {words : List Word}
    (arguments : ∀ token ∈ tokens, Item.isDatum token = true)
    (read : tokens.mapM Item.readDatum = .ok data)
    (resolved : (data.flatMap Datum.words).mapM (DraftWord.resolve labels) = .ok words) :
    (tokens.mapM (Token.words? labels.find?)).map List.flatten = some words := by
  induction tokens generalizing data words with
  | nil =>
    cases read
    cases resolved
    rfl
  | cons token tokens ih =>
    obtain ⟨datum, others, readFirst, readOthers, rfl⟩ := mapM_cons_ok read
    rw [List.flatMap_cons] at resolved
    obtain ⟨front, back, resolvedFirst, resolvedOthers, rfl⟩ := mapM_append_ok resolved
    have placed := words?_of_readDatum (arguments token List.mem_cons_self) readFirst resolvedFirst
    have placedOthers := ih (fun other member => arguments other (List.mem_cons_of_mem _ member))
      readOthers resolvedOthers
    obtain ⟨blocks, placedEach, rfl⟩ := Option.map_eq_some_iff.1 placedOthers
    rw [mapM_cons_some placed placedEach]
    rfl

/-- A part dictates the words of its item. -/
theorem words?_of_gives {part : Part} {item : Item} {words : List Word} (gives : part.Gives item)
    (resolved : item.words.mapM (DraftWord.resolve labels) = .ok words) :
    part.words? labels.find? = some words := by
  unfold Part.words?
  cases form_of_gives gives with
  | label kind bare =>
    cases resolved
    simp only [kind, bare, if_true]
    rfl
  | data kind data read =>
    obtain ⟨arguments, readAll⟩ := readData_all read
    simp only [kind, data, if_true]
    exact blocks_of_readDatum arguments readAll resolved
  | instruction kind command named read =>
    obtain ⟨values, resolvedAll, rfl⟩ := resolve_command resolved
    simp only [kind, command, named, Bool.false_eq_true, if_false, Option.bind_some,
      values?_of_readOperands read resolvedAll]
    rfl

/-! ## The layout is followed -/

theorem link_ok {draft : Draft} {executable : Executable} (h : draft.link = .ok executable) :
    draft.labels.find? startLabel = some executable.start ∧
      draft.words.toList.mapM (DraftWord.resolve draft.labels) = .ok executable.program := by
  unfold Draft.link at h
  split at h
  · cases h
  · next start found =>
    split at h
    · cases h
    · next program resolved =>
      cases h
      exact ⟨found, resolved⟩

theorem assembleWithLabels_of_draft {source : String} {tokens : List Token} (draft : Draft)
    {executable : Executable} (lexed : lex source = .ok tokens)
    (extended : Draft.empty.extend tokens = (draft.labels, .ok draft))
    (linked : draft.link = .ok executable) :
    assembleWithLabels source = .ok (executable, draft.labels) := by
  simp only [assembleWithLabels, Assembly.ofSource, lexed, Assembly.ofTokens, extended, Except.bind,
    linked, Except.map]

/-- What a source that is assembled goes through. -/
theorem assembled_steps {source : String} {executable : Executable} {labels : LabelTable}
    (h : assembleWithLabels source = .ok (executable, labels)) :
    ∃ tokens items draft, lex source = .ok tokens ∧ Read (parts tokens) items ∧
      Draft.Adds .empty items draft ∧ draft.link = .ok executable ∧ draft.labels = labels := by
  unfold assembleWithLabels Assembly.ofSource at h
  cases lexed : lex source with
  | error error => rw [lexed] at h; cases h
  | ok tokens =>
    simp only [lexed, Assembly.ofTokens] at h
    obtain ⟨found, assembled, same⟩ := map_ok h
    obtain ⟨rfl, rfl⟩ := Prod.mk.inj same
    obtain ⟨draft, extended, linked⟩ := bind_ok assembled
    obtain ⟨entered, items, read, adds⟩ := Draft.extend_ok (Prod.ext rfl extended)
    exact ⟨tokens, items, draft, rfl, read, adds, linked, entered.symm⟩

theorem assemble_eq_ok_iff {source : String} {executable : Executable} :
    assemble source = .ok executable ↔
      ∃ labels, assembleWithLabels source = .ok (executable, labels) := by
  unfold assemble assembleWithLabels
  constructor
  · intro assembled
    refine ⟨(Assembly.ofSource source).labels, ?_⟩
    simp only [assembled, Except.map]
  · rintro ⟨labels, assembled⟩
    obtain ⟨found, result, same⟩ := map_ok assembled
    obtain ⟨rfl, -⟩ := Prod.mk.inj same
    exact result

end

theorem read_append {before after : List Part} {items : List Item}
    (read : Read (before ++ after) items) :
    ∃ front back, items = front ++ back ∧ Read before front ∧ Read after back := by
  induction before generalizing items with
  | nil => exact ⟨[], items, rfl, .nil, read⟩
  | cons part before ih =>
    obtain _ | ⟨first, others⟩ := read
    obtain ⟨front, back, rfl, readFront, readBack⟩ := ih others
    exact ⟨_ :: front, back, rfl, .cons first readFront, readBack⟩

theorem append_of_read {front back : List Item} {parts : List Part}
    (read : Read parts (front ++ back)) :
    ∃ before after, parts = before ++ after ∧ Read before front ∧ Read after back := by
  induction front generalizing parts with
  | nil => exact ⟨[], parts, rfl, .nil, read⟩
  | cons item front ih =>
    obtain _ | ⟨first, others⟩ := read
    obtain ⟨before, after, rfl, readBefore, readAfter⟩ := ih others
    exact ⟨_ :: before, after, rfl, .cons first readBefore, readAfter⟩

theorem label_of_gives {part : Part} {item : Item} (gives : part.Gives item)
    (kind : part.head.kind = .label) : item = .label part.head.value := by
  cases form_of_gives gives with
  | label _ _ => rfl
  | data other _ _ | instruction other _ _ _ =>
    rw [kind] at other
    cases other

theorem head_of_gives {part : Part} {name : String} (gives : part.Gives (.label name)) :
    part.head.kind = .label ∧ part.head.value = name := by
  cases form_of_gives gives with
  | label kind bare => exact ⟨kind, rfl⟩

/-- The first pass enters each label at the size of the parts in front of it. -/
theorem find?_of_adds {source : List Part} {items : List Item} {draft : Draft}
    (read : Read source items) (adds : Draft.Adds .empty items draft) {name : String}
    {address : Nat} :
    draft.labels.find? name = some address ↔
      ∃ before part after, source = before ++ part :: after ∧ part.head.kind = .label ∧
        part.head.value = name ∧ address = total Part.size before := by
  constructor
  · intro found
    rcases Draft.known_of_adds adds found with known | ⟨front, back, rfl, place⟩
    · cases known
    · obtain ⟨before, after, split, readBefore, readAfter⟩ := append_of_read read
      obtain _ | ⟨first, others⟩ := readAfter
      refine ⟨before, _, _, split, (head_of_gives first).1, (head_of_gives first).2, ?_⟩
      rw [place, length_wordsOf readBefore]
      exact Nat.zero_add _
  · rintro ⟨before, part, after, rfl, kind, rfl, rfl⟩
    obtain ⟨front, back, rfl, readBefore, readAfter⟩ := read_append read
    obtain _ | ⟨first, others⟩ := readAfter
    rw [label_of_gives first kind] at adds
    rw [Draft.label_of_adds adds, length_wordsOf readBefore]
    exact congrArg some (Nat.zero_add _)

/-- The words behind some parts are those of the items behind theirs. -/
theorem split_program {labels : LabelTable} {before : List Part} {front back : List Item}
    {program : List Word} (read : Read before front)
    (resolved : (wordsOf (front ++ back)).mapM (DraftWord.resolve labels) = .ok program) :
    (wordsOf back).mapM (DraftWord.resolve labels) =
      .ok (program.drop (total Part.size before)) := by
  rw [wordsOf, List.flatMap_append] at resolved
  obtain ⟨ahead, behind, resolvedFront, resolvedBack, rfl⟩ := mapM_append_ok resolved
  have length : ahead.length = total Part.size before := by
    rw [← length_wordsOf read]
    exact length_of_mapM resolvedFront
  rwa [← length, List.drop_left]

section

variable {items : List Item} {draft : Draft} {executable : Executable}
  (adds : Draft.Adds .empty items draft) (linked : draft.link = .ok executable)
include adds linked

theorem resolved_of_link :
    (wordsOf items).mapM (DraftWord.resolve draft.labels) = .ok executable.program := by
  have words : draft.words.toList = wordsOf items := by
    rw [Draft.words_of_adds adds]
    rfl
  rw [← words]
  exact (link_ok linked).2

/-- The words that a part dictates stand behind those of the parts in front of it. -/
theorem words_of_link {before after : List Part} {part : Part}
    (read : Read (before ++ part :: after) items) :
    part.words? draft.labels.find? =
      some ((executable.program.drop (total Part.size before)).take part.size) := by
  obtain ⟨front, back, rfl, readFront, readBack⟩ := read_append read
  obtain _ | ⟨first, others⟩ := readBack
  have resolvedBack := split_program readFront (resolved_of_link adds linked)
  rw [wordsOf, List.flatMap_cons] at resolvedBack
  obtain ⟨own, beyond, resolvedOwn, -, rest⟩ := mapM_append_ok resolvedBack
  rw [rest, ← size_of_gives first, ← length_of_mapM resolvedOwn, List.take_left,
    words?_of_gives first resolvedOwn]

theorem laidOut_of_link {source : List Part} (read : Read source items) :
    LaidOut source draft.labels executable := by
  have length : executable.program.length = total Part.size source := by
    rw [length_of_mapM (resolved_of_link adds linked), length_wordsOf read]
  refine ⟨length, (link_ok linked).1, ?_, fun _ _ => (find?_of_adds read adds).1, ?_, ?_⟩
  · intro before part after split kind
    exact (find?_of_adds read adds).2 ⟨before, part, after, split, kind, rfl, rfl⟩
  · intro name address found
    obtain ⟨before, part, after, split, -, -, rfl⟩ := (find?_of_adds read adds).1 found
    rw [length, split, total_append]
    exact Nat.le_add_right _ _
  · intro before part after split
    rw [split] at read
    exact words_of_link adds linked read

end

/-- The executable and the labels of a source that is assembled follow the layout of its parts. -/
theorem assembled_laidOut {source : String} {executable : Executable} {labels : LabelTable}
    (assembled : assembleWithLabels source = .ok (executable, labels)) :
    ∃ tokens, lex source = .ok tokens ∧ LaidOut (parts tokens) labels executable := by
  obtain ⟨tokens, items, draft, lexed, read, adds, linked, rfl⟩ := assembled_steps assembled
  exact ⟨tokens, lexed, laidOut_of_link adds linked read⟩

/-- A label that is used before it is defined, and a string behind it. -/
theorem assembled_laidOut_forward :
    ∃ tokens, lex "_start: LDI %R0, text\ntext: WORD \"A\", _start" = .ok tokens ∧
      LaidOut (parts tokens) ⟨[("_start", 0), ("text", 1)]⟩
        ⟨0, [.command 11 [0, 1], .data 65, .data 0, .data 0]⟩ := by
  have lexed : lex "_start: LDI %R0, text\ntext: WORD \"A\", _start" = .ok
      [⟨.label, "_start", 0⟩, ⟨.instruction, "LDI", 8⟩, ⟨.register, "R0", 12⟩,
        ⟨.reference, "text", 17⟩, ⟨.label, "text", 22⟩, ⟨.instruction, "WORD", 28⟩,
        ⟨.string, "A", 33⟩, ⟨.reference, "_start", 38⟩] :=
    Lexer.lex_of_finishWithin 40 (by decide +kernel)
  let draft : Draft :=
    { words := #[.command .ldi [.literal 0, .label "text"], .data (.literal 65),
        .data (.literal 0), .data (.label "_start")]
      labels := ⟨[("_start", 0), ("text", 1)]⟩ }
  refine assembled_laidOut (assembleWithLabels_of_draft draft lexed ?_ rfl)
  rw [Draft.extend_cons rfl rfl, Draft.extend_cons rfl rfl, Draft.extend_cons rfl rfl,
    Draft.extend_cons rfl rfl]
  exact Draft.extend_nil draft

end TickMachine
