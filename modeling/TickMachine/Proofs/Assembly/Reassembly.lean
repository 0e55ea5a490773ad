import TickMachine.Proofs.Assembly.SecondPass
import TickMachine.Proofs.Assembly.WrittenWords

/-! # Reassembly

A program that is written out line by line, with the start label in its place, is assembled into the
program again. In turn, every assembled program can be written out. -/

namespace TickMachine

open Lexer (Line)

/-- The source text of an executable: a line for each word in the order of the addresses, and the
line of the start label in front of the word where execution starts. -/
def Executable.sourceText (executable : Executable) : Except DisassemblyError String := do
  let lines ← executable.program.mapM Word.sourceLine
  let start := executable.start
  return "\n".intercalate (lines.take start ++ (startLabel ++ ":") :: lines.drop start)

/-! ## Lines and items -/

/-- The items of lines. -/
inductive GivesAll : List Line → List Item → Prop
  | nil : GivesAll [] []
  | cons {line : Line} {item : Item} {lines : List Line} {items : List Item}
    (first : line.Gives item) (others : GivesAll lines items) :
    GivesAll (line :: lines) (item :: items)

theorem GivesAll.append {front back : List Line} {ahead behind : List Item}
    (first : GivesAll front ahead) (second : GivesAll back behind) :
    GivesAll (front ++ back) (ahead ++ behind) := by
  induction first with
  | nil => exact second
  | cons gives others ih => exact .cons gives ih

theorem GivesAll.readable {lines : List Line} {items : List Item} (gives : GivesAll lines items) :
    ∀ line ∈ lines, line.Readable := by
  induction gives with
  | nil =>
    intro line member
    exact absurd member List.not_mem_nil
  | cons first others ih =>
    intro line member
    rcases List.mem_cons.1 member with rfl | member
    · exact first.readable
    · exact ih line member

theorem ends_tokensOf {lines : List Line} {items : List Item} (gives : GivesAll lines items)
    (position : Nat) : Text.Ends Token.isArgument (Lexer.tokensOf position lines) := by
  cases gives with
  | nil => exact Text.ends_nil
  | cons first others =>
    obtain ⟨head, arguments, tokens, outside, -⟩ := first.read position
    rw [Lexer.tokensOf, tokens]
    exact Text.ends_cons outside

/-- A first pass over the tokens of lines adds their items. -/
theorem extend_lines {lines : List Line} {items : List Item} {draft last : Draft}
    (gives : GivesAll lines items) (adds : Draft.Adds draft items last) (position : Nat) :
    draft.extend (Lexer.tokensOf position lines) = (last.labels, .ok last) := by
  induction gives generalizing draft position with
  | nil =>
    cases adds
    exact Draft.extend_nil _
  | @cons line item lines items first others ih =>
    obtain _ | ⟨added, addsOthers⟩ := adds
    obtain ⟨head, arguments, tokens, -, read⟩ := first.read position
    have ends := ends_tokensOf others (position + line.text.length + 1)
    rw [Lexer.tokensOf, tokens, List.cons_append, Draft.extend_cons (read _ ends) added]
    exact ih addsOthers _

/-! ## Words and lines -/

/-- Lines and items as which words have been written. -/
inductive WrittenAll : List Word → List Line → List Item → Prop
  | nil : WrittenAll [] [] []
  | cons {word : Word} {line : Line} {item : Item} {words : List Word} {lines : List Line}
    {items : List Item} (first : Written word line item) (others : WrittenAll words lines items) :
    WrittenAll (word :: words) (line :: lines) (item :: items)

theorem writtenAll_of_sourceLines {words : List Word} {texts : List String}
    (h : words.mapM Word.sourceLine = .ok texts) :
    ∃ lines items, lines.map Line.text = texts.map String.toList ∧
      WrittenAll words lines items := by
  induction words generalizing texts with
  | nil =>
    cases h
    exact ⟨[], [], rfl, .nil⟩
  | cons word words ih =>
    obtain ⟨text, others, first, rest, rfl⟩ := mapM_cons_ok h
    obtain ⟨line, item, same, written⟩ := written_of_sourceLine first
    obtain ⟨lines, items, sames, writtenOthers⟩ := ih rest
    refine ⟨line :: lines, item :: items, ?_, .cons written writtenOthers⟩
    rw [List.map_cons, List.map_cons, same, sames]

section

variable {words : List Word} {lines : List Line} {items : List Item}

theorem givesAll_of_writtenAll (written : WrittenAll words lines items) :
    GivesAll lines items := by
  induction written with
  | nil => exact .nil
  | cons first others ih => exact .cons first.gives ih

theorem resolve_writtenAll (written : WrittenAll words lines items) (labels : LabelTable) :
    (wordsOf items).mapM (DraftWord.resolve labels) = .ok words := by
  induction written with
  | nil => rfl
  | cons first others ih =>
    obtain ⟨draft, same, resolved⟩ := first.words
    rw [wordsOf, List.flatMap_cons, same, List.singleton_append, List.mapM_cons, resolved]
    rw [wordsOf] at ih
    rw [ih]
    rfl

/-- Words are added to any draft, and leave its labels as they are. -/
theorem adds_of_writtenAll (written : WrittenAll words lines items) (draft : Draft) :
    ∃ last, draft.Adds items last ∧ last.labels = draft.labels := by
  induction written generalizing draft with
  | nil => exact ⟨draft, .nil draft, rfl⟩
  | @cons word line item words lines items first others ih =>
    have added : ∃ middle, draft.add item = .ok middle ∧ middle.labels = draft.labels := by
      cases item with
      | label name => exact absurd rfl (first.unlabelled name)
      | instruction op operands => exact ⟨_, rfl, rfl⟩
      | data arguments => exact ⟨_, rfl, rfl⟩
    obtain ⟨middle, added, kept⟩ := added
    obtain ⟨last, adds, keptOthers⟩ := ih middle
    exact ⟨last, .cons added adds, keptOthers.trans kept⟩

end

/-! ## The whole program -/

/-- The start label is entered between the words in front of it and the words behind it. -/
theorem adds_program {before after : List Word} {ahead behind : List Line} {front back : List Item}
    (writtenBefore : WrittenAll before ahead front) (writtenAfter : WrittenAll after behind back) :
    ∃ last, Draft.Adds .empty (front ++ .label startLabel :: back) last := by
  obtain ⟨first, addsFront, labels⟩ := adds_of_writtenAll writtenBefore .empty
  have entered : ∃ second, first.add (.label startLabel) = .ok second := by
    simp only [Draft.add, labels]
    exact ⟨_, rfl⟩
  obtain ⟨second, entered⟩ := entered
  obtain ⟨last, addsBack, -⟩ := adds_of_writtenAll writtenAfter second
  exact ⟨last, addsFront.append (.cons entered addsBack)⟩

theorem link_program {before after : List Word} {ahead behind : List Line} {front back : List Item}
    {last : Draft} (writtenBefore : WrittenAll before ahead front)
    (writtenAfter : WrittenAll after behind back)
    (adds : Draft.Adds .empty (front ++ .label startLabel :: back) last) :
    last.link = .ok ⟨before.length, before ++ after⟩ := by
  have resolvedFront := resolve_writtenAll writtenBefore last.labels
  have resolvedBack := resolve_writtenAll writtenAfter last.labels
  have start : last.labels.find? startLabel = some before.length := by
    rw [Draft.label_of_adds adds, ← length_of_mapM resolvedFront]
    exact congrArg some (Nat.zero_add _)
  have words : last.words.toList = wordsOf front ++ wordsOf back := by
    rw [Draft.words_of_adds adds]
    simp [wordsOf, Item.words, Draft.empty]
  have resolved : last.words.toList.mapM (DraftWord.resolve last.labels) =
      .ok (before ++ after) := by
    rw [words, List.mapM_append, resolvedFront, resolvedBack]
    rfl
  simp only [Draft.link, start, resolved]

/-- The line of the start label. -/
def startLine : Line := .label startLabel.toList

theorem gives_startLine : startLine.Gives (.label startLabel) := by
  have identifier : Lexer.Identifier startLabel.toList :=
    ⟨⟨_, _, rfl, rfl⟩, List.all_eq_true.1 (by decide +kernel)⟩
  have gives := gives_label identifier
  rwa [String.ofList_toList] at gives

/-- Any text that is lexed like the lines of a program is assembled into the program. -/
theorem assemble_of_lines {before after : List Word} {ahead behind : List Line}
    {front back : List Item} (writtenBefore : WrittenAll before ahead front)
    (writtenAfter : WrittenAll after behind back) {source : String}
    (lexed : lex source = .ok (Lexer.tokensOf 0 (ahead ++ startLine :: behind))) :
    assemble source = .ok ⟨before.length, before ++ after⟩ := by
  have gives : GivesAll (ahead ++ startLine :: behind) (front ++ .label startLabel :: back) :=
    (givesAll_of_writtenAll writtenBefore).append
      (.cons gives_startLine (givesAll_of_writtenAll writtenAfter))
  obtain ⟨last, adds⟩ := adds_program writtenBefore writtenAfter
  have extended := extend_lines gives adds 0
  have linked := link_program writtenBefore writtenAfter adds
  exact assemble_eq_ok_iff.2 ⟨_, assembleWithLabels_of_draft last lexed extended linked⟩

theorem joined_program {ahead behind : List Line} {texts rest : List String}
    (same : ahead.map Line.text = texts.map String.toList)
    (sames : behind.map Line.text = rest.map String.toList) :
    String.ofList (Lexer.joined (ahead ++ startLine :: behind)) =
      "\n".intercalate (texts ++ (startLabel ++ ":") :: rest) := by
  have label : startLine.text = (startLabel ++ ":").toList := by
    rw [String.toList_append]
    rfl
  apply String.toList_inj.1
  rw [String.toList_ofList, String.toList_intercalate, Lexer.joined, List.map_append, List.map_cons,
    same, sames, label, List.map_append, List.map_cons]
  rfl

/-- The text of an executable is assembled into the executable, whether or not its last line is
ended. -/
theorem assemble_sourceText {executable : Executable} {text : String}
    (inside : executable.start ≤ executable.program.length)
    (written : executable.sourceText = .ok text) :
    assemble text = .ok executable ∧ assemble (text ++ "\n") = .ok executable := by
  obtain ⟨start, program⟩ := executable
  obtain ⟨lines, formats, written⟩ := bind_ok written
  have split : program = program.take start ++ program.drop start := by simp
  have length : (program.take start).length = start := List.length_take_of_le inside
  rw [split] at formats
  obtain ⟨texts, rest, formatsBefore, formatsAfter, rfl⟩ := mapM_append_ok formats
  have place : texts.length = start := (length_of_mapM formatsBefore).trans length
  obtain ⟨ahead, front, same, writtenBefore⟩ := writtenAll_of_sourceLines formatsBefore
  obtain ⟨behind, back, sames, writtenAfter⟩ := writtenAll_of_sourceLines formatsAfter
  have joined : String.ofList (Lexer.joined (ahead ++ startLine :: behind)) = text := by
    rw [joined_program same sames]
    simp only [List.take_left' place, List.drop_left' place] at written
    exact Except.ok.inj written
  have gives : GivesAll (ahead ++ startLine :: behind) (front ++ .label startLabel :: back) :=
    (givesAll_of_writtenAll writtenBefore).append
      (.cons gives_startLine (givesAll_of_writtenAll writtenAfter))
  have lexed := Lexer.lex_lines gives.readable
  rw [joined] at lexed
  have whole : (⟨(program.take start).length, program.take start ++ program.drop start⟩ :
      Executable) = ⟨start, program⟩ := by
    rw [length, ← split]
  rw [← whole]
  exact ⟨assemble_of_lines writtenBefore writtenAfter lexed.1,
    assemble_of_lines writtenBefore writtenAfter lexed.2⟩

/-! ## Assembled programs -/

theorem operand_of_readOperand {labels : LabelTable} {op : Op} {kind : OperandKind} {token : Token}
    {operand : Operand} {value : Int32} (read : Item.readOperand op kind token = .ok operand)
    (resolved : operand.resolve labels = .ok value) :
    ∃ text, Disassembly.operand kind value = .ok text := by
  cases kind with
  | immediate => exact ⟨_, rfl⟩
  | register =>
    unfold Item.readOperand at read
    split at read
    · split at read
      · next register named =>
        cases read
        cases resolved
        exact ⟨register.text, by
          simp only [Disassembly.operand, Disassembly.register, Register.ofCode?_code]⟩
      · cases read
    · contradiction
    · contradiction
    · cases read

/-- The operands of an instruction can be disassembled once they are numbers. -/
theorem operands_of_readOperands {labels : LabelTable} {op : Op} {kinds : List OperandKind}
    {tokens rest : List Token} {operands : List Operand} {values : List Int32}
    (read : Item.readOperands op kinds tokens = .ok (operands, rest))
    (resolved : operands.mapM (Operand.resolve labels) = .ok values) :
    values.length = kinds.length ∧ ∃ texts, Disassembly.operands kinds values = .ok texts := by
  induction kinds generalizing tokens operands values with
  | nil =>
    rw [Item.readOperands] at read
    cases read
    cases resolved
    exact ⟨rfl, [], rfl⟩
  | cons kind kinds ih =>
    obtain ⟨token, behind, operand, others, rfl, readFirst, readOthers, rfl⟩ :=
      Item.readOperands_cons_ok read
    obtain ⟨value, values, resolvedFirst, resolvedOthers, rfl⟩ := mapM_cons_ok resolved
    obtain ⟨length, texts, written⟩ := ih readOthers resolvedOthers
    obtain ⟨text, writtenFirst⟩ := operand_of_readOperand readFirst resolvedFirst
    refine ⟨by rw [List.length_cons, List.length_cons, length], text :: texts, ?_⟩
    rw [Disassembly.operands, writtenFirst, written]
    rfl

theorem gives_of_mem {parts : List Part} {items : List Item} (read : Read parts items) {item : Item}
    (member : item ∈ items) : ∃ part : Part, part.Gives item := by
  induction read with
  | nil => exact absurd member List.not_mem_nil
  | cons first others ih =>
    rcases List.mem_cons.1 member with rfl | member
    · exact ⟨_, first⟩
    · exact ih member

theorem disassemble_command {op : Op} {values : List Int32} {texts : List String}
    (length : values.length = op.arity)
    (written : Disassembly.operands op.kinds values = .ok texts) :
    ∃ text, Word.disassemble (.command op.code values) = .ok text := by
  simp only [Word.disassemble, Disassembly.command, Op.ofCode?_code, length, ne_eq,
    not_true_eq_false, if_false, written, bind, Except.bind]
  cases texts with
  | nil => exact ⟨_, rfl⟩
  | cons first others => exact ⟨_, rfl⟩

/-- The words of an item that has been read have a text once their labels have addresses. -/
theorem disassemble_of_gives {labels : LabelTable} {part : Part} {item : Item} {draft : DraftWord}
    {word : Word} (gives : part.Gives item) (member : draft ∈ item.words)
    (resolved : draft.resolve labels = .ok word) : ∃ text, word.disassemble = .ok text := by
  cases draft with
  | data content =>
    rw [DraftWord.resolve] at resolved
    obtain ⟨value, -, rfl⟩ := map_ok resolved
    exact ⟨_, rfl⟩
  | command op operands =>
    cases item with
    | label name => exact absurd member List.not_mem_nil
    | data arguments =>
      obtain ⟨datum, -, placed⟩ := List.mem_flatMap.1 member
      cases datum with
      | number value => cases List.mem_singleton.1 placed
      | label name => cases List.mem_singleton.1 placed
      | string text => simp [Datum.words] at placed
    | instruction named given =>
      cases List.mem_singleton.1 member
      rw [DraftWord.resolve] at resolved
      obtain ⟨values, numbers, rfl⟩ := map_ok resolved
      cases form_of_gives gives with
      | instruction kind command named read =>
        obtain ⟨length, texts, written⟩ := operands_of_readOperands read numbers
        exact disassemble_command length written

/-! ## Writable programs -/

/-- An executable that can be written out: it starts at one of its addresses or right behind the
last of them, and each of its words has a text. -/
structure Executable.Writable (executable : Executable) : Prop where
  inside : executable.start ≤ executable.program.length
  words : ∀ word ∈ executable.program, ∃ text, word.disassemble = .ok text

theorem sourceText_of_writable {executable : Executable} (writable : executable.Writable) :
    ∃ text, executable.sourceText = .ok text := by
  have lines : ∃ lines, executable.program.mapM Word.sourceLine = .ok lines := by
    apply mapM_total
    intro word member
    obtain ⟨text, written⟩ := writable.words word member
    cases word with
    | data value => exact ⟨_, rfl⟩
    | command opcode values => exact ⟨text, written⟩
  obtain ⟨lines, written⟩ := lines
  unfold Executable.sourceText
  rw [written]
  exact ⟨_, rfl⟩

theorem writable_of_assemble {source : String} {executable : Executable}
    (assembled : assemble source = .ok executable) : executable.Writable := by
  obtain ⟨labels, assembled⟩ := assemble_eq_ok_iff.1 assembled
  obtain ⟨tokens, items, draft, -, read, adds, linked, -⟩ := assembled_steps assembled
  have layout := laidOut_of_link adds linked read
  refine ⟨layout.inside _ _ layout.start, ?_⟩
  intro word member
  obtain ⟨placed, inside, resolved⟩ := source_of_mem_mapM (resolved_of_link adds linked) member
  rw [wordsOf] at inside
  obtain ⟨item, among, inside⟩ := List.mem_flatMap.1 inside
  obtain ⟨part, gives⟩ := gives_of_mem read among
  exact disassemble_of_gives gives inside resolved

/-- Writing an executable out and assembling the text is the identity, and every executable that is
assembled can be written out. -/
theorem reassembly :
    (∀ executable : Executable, executable.Writable →
      ∃ text, executable.sourceText = .ok text ∧ assemble text = .ok executable ∧
        assemble (text ++ "\n") = .ok executable) ∧
    ∀ (source : String) (executable : Executable), assemble source = .ok executable →
      executable.Writable := by
  constructor
  · intro executable writable
    obtain ⟨text, written⟩ := sourceText_of_writable writable
    exact ⟨text, written, assemble_sourceText writable.inside written⟩
  · intro source executable assembled
    exact writable_of_assemble assembled

/-- Data in front of the start label and a command behind it. -/
theorem reassembly_data_command :
    assemble "WORD -5\n_start:\nLDI %R0, 7" = .ok ⟨1, [.data (-5), .command 11 [0, 7]]⟩ := by
  have writable : Executable.Writable ⟨1, [.data (-5), .command 11 [0, 7]]⟩ := by
    refine ⟨by decide, ?_⟩
    intro word member
    rcases List.mem_cons.1 member with rfl | member
    · exact ⟨"-5", rfl⟩
    · rw [List.mem_singleton.1 member]
      exact ⟨"LDI %R0, 7", rfl⟩
  obtain ⟨text, written, assembled, -⟩ := reassembly.1 _ writable
  have same : Executable.sourceText ⟨1, [.data (-5), .command 11 [0, 7]]⟩ =
      .ok "WORD -5\n_start:\nLDI %R0, 7" := rfl
  cases written.symm.trans same
  exact assembled

end TickMachine
