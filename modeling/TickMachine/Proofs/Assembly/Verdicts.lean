import TickMachine.Proofs.Assembly.FirstPassErrors
import TickMachine.Proofs.Assembly.SecondPass
import TickMachine.Proofs.Text.Decimal

/-! # Verdicts of the assembler

What the assembler answers for every source. It accepts exactly the sequences of well-formed items
that define each of their labels once, the one at which execution starts among them, and that refer
to labels within reach. The errors of other sources come in a fixed order: first the lexical ones,
then those of the first pass, then a missing start, and then what the operands refer to. -/

namespace TickMachine

/-- The name that a token refers to. -/
def Token.referred? (token : Token) : Option String :=
  if token.kind = .reference then some token.value else none

/-- The names that tokens refer to, in their order. -/
def references (tokens : List Token) : List String := tokens.filterMap Token.referred?

/-- A name that is defined where so many words stand in front of it that the address is a machine
value. -/
def Placed (tokens : List Token) (name : String) : Prop :=
  ∃ before part after, parts tokens = before ++ part :: after ∧ part.head.kind = .label ∧
    part.head.value = name ∧ total Part.size before ≤ 2147483647

/-- The answer for tokens whose items are all complete: where a label is defined twice, the error
names the one whose second definition comes first. Otherwise a missing start comes before what the
operands refer to, and these are judged in their order. -/
structure JudgedAsProgram (tokens : List Token) (answer : Except AssemblyError Executable) :
    Prop where
  redefined : ¬(definitions tokens).Nodup → ∃ name, Redefines (definitions tokens) name ∧
    answer = .error (.labelRedefinition name)
  unstarted : (definitions tokens).Nodup → startLabel ∉ definitions tokens →
    answer = .error .missingStartLabel
  undefined : (definitions tokens).Nodup → startLabel ∈ definitions tokens →
    ∀ before name after, references tokens = before ++ name :: after →
      (∀ other ∈ before, Placed tokens other) → name ∉ definitions tokens →
      answer = .error (.undefinedLabel name)
  outside : (definitions tokens).Nodup → startLabel ∈ definitions tokens →
    ∀ before name after, references tokens = before ++ name :: after →
      (∀ other ∈ before, Placed tokens other) → name ∈ definitions tokens → ¬Placed tokens name →
      answer = .error .programTooLarge
  accepted : (definitions tokens).Nodup → startLabel ∈ definitions tokens →
    (∀ name ∈ references tokens, Placed tokens name) → ∃ executable, answer = .ok executable

/-- The answer for tokens in which something else is wrong behind the first ones: a label that these
define twice comes before it. -/
structure StoppedBehind (ahead : List Token) (error : AssemblyError)
    (answer : Except AssemblyError Executable) : Prop where
  redefined : ¬(definitions ahead).Nodup → ∃ name, Redefines (definitions ahead) name ∧
    answer = .error (.labelRedefinition name)
  stopped : (definitions ahead).Nodup → answer = .error error

/-- The answer for a source. Where its tokens are no program, there is a first one that no program
has in its place, and every source that has the same tokens up to that one gets the same error; or
there is none, and the tokens end in the middle of an item. -/
structure Judged (source : String) : Prop where
  lexical : ∀ error, (tokenize source).error = some error →
    assemble source = .error (.lexical error)
  program : ∀ tokens, lex source = .ok tokens → IsProgram tokens →
    JudgedAsProgram tokens (assemble source)
  other : ∀ tokens, lex source = .ok tokens → ¬IsProgram tokens →
    (∃ ahead token rest error, tokens = ahead ++ token :: rest ∧ BreaksAt ahead token error ∧
      (∃ more, IsProgram (ahead ++ more)) ∧ (∀ more, ¬IsProgram (ahead ++ token :: more)) ∧
      ∀ variant more, lex variant = .ok (ahead ++ token :: more) →
        StoppedBehind ahead error (assemble variant)) ∨
    (∃ error, BreaksOff tokens error ∧ (∃ more, IsProgram (tokens ++ more)) ∧
      StoppedBehind tokens error (assemble source))

/-! ## What words refer to -/

/-- The label that an operand refers to. -/
def Operand.reference? : Operand → Option String
  | .literal _ => none
  | .label name => some name

/-- The labels that a word refers to, in their order. -/
def DraftWord.references : DraftWord → List String
  | .data content => content.reference?.toList
  | .command _ operands => operands.filterMap Operand.reference?

/-- Why the address of a label cannot be put in its place. -/
def LabelTable.unresolved? (labels : LabelTable) (name : String) : Option AssemblyError :=
  errorOf? ((Operand.label name).resolve labels)

section

variable (labels : LabelTable)

theorem errorOf?_resolveOperand (operand : Operand) :
    errorOf? (operand.resolve labels) = operand.reference?.bind labels.unresolved? := by
  cases operand <;> rfl

theorem findSome?_operands (operands : List Operand) :
    (operands.findSome? fun operand => errorOf? (operand.resolve labels)) =
      (operands.filterMap Operand.reference?).findSome? labels.unresolved? := by
  induction operands with
  | nil => rfl
  | cons operand operands ih =>
    rw [List.findSome?_cons, errorOf?_resolveOperand, ih]
    cases operand <;> rfl

theorem errorOf?_resolve (word : DraftWord) :
    errorOf? (word.resolve labels) = word.references.findSome? labels.unresolved? := by
  cases word with
  | data content =>
    rw [DraftWord.resolve, errorOf?_map, errorOf?_resolveOperand]
    cases content with
    | literal value => rfl
    | label name =>
      simp only [DraftWord.references, Operand.reference?, Option.toList_some,
        List.findSome?_singleton, Option.bind_some]
  | command op operands =>
    rw [DraftWord.resolve, errorOf?_map, errorOf?_mapM, findSome?_operands]
    rfl

/-- The second pass fails at the first label that cannot be resolved. -/
theorem errorOf?_words (words : List DraftWord) :
    errorOf? (words.mapM (DraftWord.resolve labels)) =
      (words.flatMap DraftWord.references).findSome? labels.unresolved? := by
  rw [errorOf?_mapM, findSome?_flatMap]
  exact congrArg (words.findSome? ·) (funext (errorOf?_resolve labels))

end

/-! ## What parts refer to -/

theorem references_cons (token : Token) (tokens : List Token) :
    references (token :: tokens) = references [token] ++ references tokens :=
  List.filterMap_append (l := [token])

theorem readOperand_reference {op : Op} {kind : OperandKind} {token : Token} {operand : Operand}
    (read : Item.readOperand op kind token = .ok operand) :
    operand.reference?.toList = references [token] := by
  unfold Item.readOperand at read
  split at read
  · next same =>
    split at read
    · cases read
      simp [references, Token.referred?, same, Operand.reference?]
    · cases read
  · next same =>
    obtain ⟨value, -, rfl⟩ := map_ok read
    simp [references, Token.referred?, same, Operand.reference?]
  · next same =>
    cases read
    simp [references, Token.referred?, same, Operand.reference?]
  · cases read

theorem readOperands_references {op : Op} {kinds : List OperandKind} {tokens : List Token}
    {operands : List Operand} (read : Item.readOperands op kinds tokens = .ok (operands, [])) :
    operands.filterMap Operand.reference? = references tokens := by
  induction kinds generalizing tokens operands with
  | nil =>
    rw [Item.readOperands] at read
    cases read
    rfl
  | cons kind kinds ih =>
    obtain ⟨token, behind, operand, others, rfl, readFirst, readOthers, rfl⟩ :=
      Item.readOperands_cons_ok read
    rw [references_cons, ← readOperand_reference readFirst, ← ih readOthers]
    cases operand <;> rfl

theorem readDatum_references {token : Token} {datum : Datum}
    (data : Item.isDatum token = true) (read : Item.readDatum token = .ok datum) :
    datum.words.flatMap DraftWord.references = references [token] := by
  unfold Item.isDatum at data
  unfold Item.readDatum at read
  rw [references, List.filterMap_cons, Token.referred?]
  cases kind : token.kind with
  | label | instruction | register => simp [kind] at data
  | string =>
    rw [kind] at read
    cases read
    simp [Datum.words, DraftWord.references, Operand.reference?]
  | reference =>
    rw [kind] at read
    cases read
    simp [Datum.words, DraftWord.references, Operand.reference?]
  | number =>
    rw [kind] at read
    obtain ⟨value, -, rfl⟩ := map_ok read
    simp [Datum.words, DraftWord.references, Operand.reference?]

theorem readData_references {tokens : List Token} {found : List Datum}
    (data : ∀ token ∈ tokens, Item.isDatum token = true)
    (read : tokens.mapM Item.readDatum = .ok found) :
    (found.flatMap Datum.words).flatMap DraftWord.references = references tokens := by
  induction tokens generalizing found with
  | nil =>
    cases read
    rfl
  | cons token tokens ih =>
    obtain ⟨datum, others, readFirst, readOthers, rfl⟩ := mapM_cons_ok read
    rw [List.flatMap_cons, List.flatMap_append, references_cons,
      readDatum_references (data token List.mem_cons_self) readFirst,
      ih (fun other member => data other (List.mem_cons_of_mem _ member)) readOthers]

/-- The words of an item refer to what its tokens refer to. -/
theorem references_of_gives {part : Part} {item : Item} (gives : part.Gives item) :
    item.words.flatMap DraftWord.references = references (part.head :: part.arguments) := by
  have head : references [part.head] = [] := by
    rw [references, List.filterMap_cons, Token.referred?]
    cases form_of_gives gives with
    | label kind _ | data kind _ _ | instruction kind _ _ _ => simp [kind]
  rw [references_cons, head, List.nil_append]
  cases form_of_gives gives with
  | label kind bare =>
    rw [bare]
    rfl
  | data kind data read =>
    obtain ⟨arguments, readAll⟩ := readData_all read
    exact readData_references arguments readAll
  | instruction kind command named read =>
    rw [← readOperands_references read]
    exact List.append_nil _

theorem references_wordsOf {parts : List Part} {items : List Item} (read : Read parts items) :
    (wordsOf items).flatMap DraftWord.references =
      parts.flatMap fun part => references (part.head :: part.arguments) := by
  induction read with
  | nil => rfl
  | cons first others ih =>
    rw [wordsOf, List.flatMap_cons, List.flatMap_append, references_of_gives first,
      List.flatMap_cons, ← ih]
    rfl

/-! ## The tokens of the parts -/

theorem parts_tokens (tokens : List Token) :
    ((parts tokens).flatMap fun part => part.head :: part.arguments) = tokens := by
  fun_induction parts tokens with
  | case1 => rfl
  | case2 token tokens ih =>
    rw [List.flatMap_cons, ih, List.cons_append, List.takeWhile_append_dropWhile]

theorem references_eq (tokens : List Token) :
    references tokens =
      (parts tokens).flatMap fun part => references (part.head :: part.arguments) := by
  conv => lhs; rw [← parts_tokens tokens]
  exact List.filterMap_flatMap

/-- Labels are defined by the first tokens of parts. -/
theorem definitions_eq (tokens : List Token) :
    definitions tokens = (parts tokens).filterMap fun part => part.head.defined? := by
  fun_induction parts tokens with
  | case1 => rfl
  | case2 token tokens ih =>
    have arguments : definitions (tokens.takeWhile Token.isArgument) = [] := by
      refine List.filterMap_eq_nil_iff.2 fun argument member => if_neg fun label => ?_
      have inside := List.all_eq_true.1 List.all_takeWhile argument member
      rw [Token.isArgument, label] at inside
      cases inside
    have others : definitions tokens = definitions (tokens.dropWhile Token.isArgument) := by
      conv => lhs; rw [← List.takeWhile_append_dropWhile (p := Token.isArgument) (l := tokens)]
      rw [definitions, List.filterMap_append]
      exact congrArg (· ++ _) arguments
    rw [definitions, List.filterMap_cons, List.filterMap_cons, ← ih, ← others]
    rfl

theorem mem_definitions_iff {tokens : List Token} {name : String} :
    name ∈ definitions tokens ↔ ∃ before part after, parts tokens = before ++ part :: after ∧
      part.head.kind = .label ∧ part.head.value = name := by
  rw [definitions_eq, List.mem_filterMap]
  constructor
  · rintro ⟨part, member, defined⟩
    unfold Token.defined? at defined
    obtain ⟨before, after, split⟩ := List.append_of_mem member
    split at defined
    · next kind => exact ⟨before, part, after, split, kind, Option.some.inj defined⟩
    · cases defined
  · rintro ⟨before, part, after, split, kind, value⟩
    refine ⟨part, ?_, by rw [Token.defined?, if_pos kind, value]⟩
    rw [split]
    exact List.mem_append_right _ List.mem_cons_self

/-! ## The second pass -/

theorem toInt32?_of_le {address : Nat} (small : address ≤ 2147483647) :
    Decimal.toInt32? address = some (Int32.ofInt address) := by
  have lower : Int32.minValue.toInt = -2147483648 := rfl
  have upper : Int32.maxValue.toInt = 2147483647 := rfl
  exact if_pos (by omega)

theorem toInt32?_of_not_le {address : Nat} (large : ¬address ≤ 2147483647) :
    Decimal.toInt32? address = none :=
  Decimal.toInt32?_eq_none_iff.2 (.inr (by omega))

section

variable {tokens : List Token} {items : List Item} {draft : Draft}
  (read : Read (parts tokens) items) (adds : Draft.Adds .empty items draft)
include read adds

theorem find?_eq_none_iff_of_adds {name : String} :
    draft.labels.find? name = none ↔ name ∉ definitions tokens := by
  rw [mem_definitions_iff]
  constructor
  · rintro missing ⟨before, part, after, split, kind, value⟩
    have found := (find?_of_adds read adds).2 ⟨before, part, after, split, kind, value, rfl⟩
    rw [missing] at found
    cases found
  · intro undefined
    cases found : draft.labels.find? name with
    | none => rfl
    | some address =>
      obtain ⟨before, part, after, split, kind, value, -⟩ := (find?_of_adds read adds).1 found
      exact absurd ⟨before, part, after, split, kind, value⟩ undefined

theorem unresolved?_of_placed {name : String} (placed : Placed tokens name) :
    draft.labels.unresolved? name = none := by
  obtain ⟨before, part, after, split, kind, value, small⟩ := placed
  have found := (find?_of_adds read adds).2 ⟨before, part, after, split, kind, value, rfl⟩
  simp only [LabelTable.unresolved?, Operand.resolve, LabelTable.address, found,
    toInt32?_of_le small, errorOf?]

theorem unresolved?_of_undefined {name : String} (undefined : name ∉ definitions tokens) :
    draft.labels.unresolved? name = some (.undefinedLabel name) := by
  have missing := (find?_eq_none_iff_of_adds read adds).2 undefined
  simp only [LabelTable.unresolved?, Operand.resolve, LabelTable.address, missing, errorOf?]

theorem unresolved?_of_outside {name : String} (defined : name ∈ definitions tokens)
    (outside : ¬Placed tokens name) :
    draft.labels.unresolved? name = some .programTooLarge := by
  obtain ⟨before, part, after, split, kind, value⟩ := mem_definitions_iff.1 defined
  have found := (find?_of_adds read adds).2 ⟨before, part, after, split, kind, value, rfl⟩
  have large : ¬total Part.size before ≤ 2147483647 := fun small =>
    outside ⟨before, part, after, split, kind, value, small⟩
  simp only [LabelTable.unresolved?, Operand.resolve, LabelTable.address, found,
    toInt32?_of_not_le large, errorOf?]

theorem errorOf?_program :
    errorOf? (draft.words.toList.mapM (DraftWord.resolve draft.labels)) =
      (references tokens).findSome? draft.labels.unresolved? := by
  have words : draft.words.toList = wordsOf items := by
    rw [Draft.words_of_adds adds]
    rfl
  rw [words, errorOf?_words, references_wordsOf read, references_eq]

/-- What the second pass answers, once the first one has succeeded. -/
theorem judged_link (redefined : ¬(definitions tokens).Nodup → ∃ name,
      Redefines (definitions tokens) name ∧ draft.link = .error (.labelRedefinition name)) :
    JudgedAsProgram tokens draft.link := by
  have missing : draft.labels.find? startLabel = none ↔ startLabel ∉ definitions tokens :=
    find?_eq_none_iff_of_adds read adds
  have program := errorOf?_program read adds
  -- once the start is there, the second pass fails where the program does
  have linked : startLabel ∈ definitions tokens →
      errorOf? draft.link = (references tokens).findSome? draft.labels.unresolved? := by
    intro started
    rw [← program, Draft.link]
    cases found : draft.labels.find? startLabel with
    | none => exact absurd started (missing.1 found)
    | some start => cases draft.words.toList.mapM (DraftWord.resolve draft.labels) <;> rfl
  refine ⟨redefined, ?_, ?_, ?_, ?_⟩
  · intro _ unstarted
    rw [Draft.link, missing.2 unstarted]
  · intro _ started before name after split placed undefined
    rw [← errorOf?_eq_some_iff, linked started, List.findSome?_eq_some_iff]
    exact ⟨before, name, after, split, unresolved?_of_undefined read adds undefined,
      fun other member => unresolved?_of_placed read adds (placed other member)⟩
  · intro _ started before name after split placed defined outside
    rw [← errorOf?_eq_some_iff, linked started, List.findSome?_eq_some_iff]
    exact ⟨before, name, after, split, unresolved?_of_outside read adds defined outside,
      fun other member => unresolved?_of_placed read adds (placed other member)⟩
  · intro _ started placed
    rw [← errorOf?_eq_none_iff, linked started, List.findSome?_eq_none_iff]
    exact fun name member => unresolved?_of_placed read adds (placed name member)

end

/-! ## All sources -/

theorem assemble_of_lex {source : String} {tokens : List Token} (lexed : lex source = .ok tokens) :
    assemble source = (Draft.empty.extend tokens).2.bind Draft.link := by
  simp only [assemble, Assembly.ofSource, lexed, Assembly.ofTokens]

theorem errorOf?_extend_empty (tokens : List Token) :
    errorOf? (Draft.empty.extend tokens).2 = Stage.between.firstError [] tokens := by
  refine Draft.errorOf?_extend fun name => ?_
  constructor <;> intro known <;> cases known

variable {source : String} {ahead more : List Token} {stage : Stage}

/-- A label that is defined twice by tokens that a program can begin with. -/
theorem redefined_of_run (lexed : lex source = .ok (ahead ++ more))
    (front : Stage.between.run ahead = .ok stage) (double : ¬(definitions ahead).Nodup) :
    ∃ name, Redefines (definitions ahead) name ∧
      assemble source = .error (.labelRedefinition name) := by
  obtain ⟨name, redefines⟩ := exists_redefines double
  refine ⟨name, redefines, ?_⟩
  obtain ⟨before, after, split, fresh, again⟩ := redefines
  have first : Stage.between.firstError [] (ahead ++ more) = some (.labelRedefinition name) := by
    refine Stage.firstError_of_redefines front split ?_ ?_ more
    · exact fresh
    · exact again
  rw [← errorOf?_extend_empty, errorOf?_eq_some_iff] at first
  rw [assemble_of_lex lexed, first]
  rfl

theorem stoppedBehind_of_run {error : AssemblyError} (lexed : lex source = .ok (ahead ++ more))
    (front : Stage.between.run ahead = .ok stage)
    (stuck : ∀ seen, stage.firstError seen more = some error) :
    StoppedBehind ahead error (assemble source) := by
  refine ⟨redefined_of_run lexed front, fun fresh => ?_⟩
  have first : Stage.between.firstError [] (ahead ++ more) =
      stage.firstError (definitions ahead) more := Stage.firstError_of_nodup front fresh more
  rw [stuck, ← errorOf?_extend_empty, errorOf?_eq_some_iff] at first
  rw [assemble_of_lex lexed, first]
  rfl

theorem judgedAsProgram_of_isProgram {tokens : List Token} (lexed : lex source = .ok tokens)
    (program : IsProgram tokens) : JudgedAsProgram tokens (assemble source) := by
  obtain ⟨stage, front, complete⟩ := isProgram_iff.1 program
  rw [← List.append_nil tokens] at lexed
  have redefined := redefined_of_run lexed front
  by_cases fresh : (definitions tokens).Nodup
  · have first : Stage.between.firstError [] (tokens ++ []) =
        stage.firstError (definitions tokens) [] := Stage.firstError_of_nodup front fresh []
    rw [Stage.firstError, complete, ← errorOf?_extend_empty, errorOf?_eq_none_iff,
      List.append_nil] at first
    rw [List.append_nil] at lexed
    obtain ⟨draft, extended⟩ := first
    obtain ⟨-, items, read, adds⟩ := Draft.extend_ok (Prod.ext rfl extended)
    have linked : assemble source = draft.link := by
      rw [assemble_of_lex lexed, extended]
      rfl
    rw [linked] at redefined ⊢
    exact judged_link read adds redefined
  · exact ⟨redefined, fun nodup => absurd nodup fresh, fun nodup => absurd nodup fresh,
      fun nodup => absurd nodup fresh, fun nodup => absurd nodup fresh⟩

/-- Every source is judged by its tokens. -/
theorem assembly_judged (source : String) : Judged source := by
  refine ⟨?_, fun tokens => judgedAsProgram_of_isProgram, ?_⟩
  · intro error ended
    simp only [assemble, Assembly.ofSource, lex, ended]
  · intro tokens lexed no
    rcases breaks_of_not_isProgram no with
      ⟨ahead, token, rest, error, rfl, breaks⟩ | ⟨error, breaks⟩
    · obtain ⟨stage, front, stuck⟩ := breaks
      refine .inl ⟨ahead, token, rest, error, rfl, ⟨stage, front, stuck⟩, exists_program front,
        BreaksAt.not_isProgram ⟨stage, front, stuck⟩, ?_⟩
      intro variant more lexed
      exact stoppedBehind_of_run lexed front fun seen => Stage.firstError_of_error stuck
    · obtain ⟨stage, front, missing⟩ := breaks
      rw [← List.append_nil tokens] at lexed
      exact .inr ⟨error, ⟨stage, front, missing⟩, exists_program front,
        stoppedBehind_of_run lexed front fun seen => missing⟩

end TickMachine
