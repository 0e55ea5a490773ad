import TickMachine.Proofs.Arch.Catalog
import TickMachine.Proofs.Assembly.Items

/-! # The language of programs

Which sequences of tokens are programs, said in two ways: as sequences of phrases, and token by
token, by what may follow the tokens read so far. Both say the same (`isProgram_iff`). So a sequence
of tokens that is no program has a first token which no program has in its place, or it ends in the
middle of a phrase. -/

namespace TickMachine

/-! ## Tokens in their places -/

namespace Token

/-- Whether the token is a number in the range of machine values. -/
def inRange (token : Token) : Bool :=
  token.kind == .number &&
    (Decimal.readInt? token.value.toList).any fun i => -2147483648 ≤ i ∧ i ≤ 2147483647

/-- Whether the token can stand for an operand of a kind: for a register its name, whatever the case
of its letter, and for an immediate a number or a label. -/
def fits (token : Token) : OperandKind → Bool
  | .register =>
    token.kind == .register &&
      Register.all.any fun register => Text.sameFolded register.name token.value
  | .immediate => token.kind == .reference || token.inRange

/-- Whether the token can be an argument of a data item. -/
def places (token : Token) : Bool :=
  token.kind == .string || token.kind == .reference || token.inRange

/-- Whether the token is the mnemonic of an operation, whatever the case of its letters. -/
def names (token : Token) (op : Op) : Bool :=
  token.kind == .instruction && Text.sameFolded op.mnemonic token.value

/-- Whether the token is the mnemonic that places data. -/
def placesData (token : Token) : Bool :=
  token.kind == .instruction && Text.sameFolded token.value dataMnemonic

/-- Why a token cannot stand for an operand of a kind. -/
def misfit (token : Token) (op : Op) (kind : OperandKind) : AssemblyError :=
  match kind, token.kind with
  | .register, .register => .invalidRegister token.value
  | .immediate, .number => .invalidNumber token.value
  | _, _ => .operandKind op kind token

end Token

/-! ## Phrases -/

/-- Tokens that stand for operands of the kinds, one for each. -/
inductive FitAll : List OperandKind → List Token → Prop
  | nil : FitAll [] []
  | cons {kind : OperandKind} {token : Token} {kinds : List OperandKind} {tokens : List Token}
    (first : token.fits kind = true) (others : FitAll kinds tokens) :
    FitAll (kind :: kinds) (token :: tokens)

/-- The tokens of a well-formed item. -/
inductive Phrase : List Token → Prop
  | label {head : Token} (kind : head.kind = .label) : Phrase [head]
  | command {head : Token} {op : Op} {arguments : List Token} (named : head.names op = true)
    (fit : FitAll op.kinds arguments) : Phrase (head :: arguments)
  | data {head : Token} {arguments : List Token} (named : head.placesData = true)
    (filled : arguments ≠ []) (places : ∀ argument ∈ arguments, argument.places = true) :
    Phrase (head :: arguments)

/-- A sequence of well-formed items. -/
inductive IsProgram : List Token → Prop
  | nil : IsProgram []
  | cons {phrase tokens : List Token} (first : Phrase phrase) (others : IsProgram tokens) :
    IsProgram (phrase ++ tokens)

/-! ## Token by token -/

/-- What may follow the tokens read so far. -/
inductive Stage
  /-- The items are complete. -/
  | between
  /-- An operand of the kind comes next, and operands of the kinds behind it. -/
  | operands (op : Op) (kind : OperandKind) (kinds : List OperandKind)
  /-- An argument of a data item comes next, unless there has been one. -/
  | data (filled : Bool)

namespace Stage

/-- The stage in front of the operands that are left. -/
def awaiting (op : Op) : List OperandKind → Stage
  | [] => .between
  | kind :: kinds => .operands op kind kinds

/-- The stage behind the first token of an item. -/
def opened (token : Token) : Except AssemblyError Stage :=
  match token.kind with
  | .label => .ok .between
  | .instruction =>
    if token.placesData then .ok (.data false)
    else
      match Op.ofMnemonic? token.value with
      | some op => .ok (awaiting op op.kinds)
      | none => .error (.unknownInstruction token.value)
  | _ => .error (.unexpectedToken token)

/-- The stage behind one more token, unless no program goes on with it. -/
def next : Stage → Token → Except AssemblyError Stage
  | .between, token => opened token
  | .operands op kind kinds, token =>
    if token.fits kind then .ok (awaiting op kinds) else .error (token.misfit op kind)
  | .data filled, token =>
    if token.places then .ok (.data true)
    else if token.kind = .number then .error (.invalidNumber token.value)
    else if filled then opened token
    else .error (.dataKind token)

/-- What is missing where the tokens end. -/
def missing? : Stage → Option AssemblyError
  | .between => none
  | .operands op _ _ => some (.missingOperand op)
  | .data filled => if filled then none else some .missingData

/-- The stage behind a sequence of tokens, unless no program goes on with one of them. -/
def run (stage : Stage) (tokens : List Token) : Except AssemblyError Stage :=
  tokens.foldlM next stage

end Stage

/-- A token that no program has behind the tokens ahead of it, which a program can begin with. -/
def BreaksAt (ahead : List Token) (token : Token) (error : AssemblyError) : Prop :=
  ∃ stage, Stage.between.run ahead = .ok stage ∧ stage.next token = .error error

/-- Tokens that a program can begin with, but that do not complete their last item. -/
def BreaksOff (tokens : List Token) (error : AssemblyError) : Prop :=
  ∃ stage, Stage.between.run tokens = .ok stage ∧ stage.missing? = some error

namespace Stage

variable {stage middle last : Stage} {token : Token} {tokens : List Token}

theorem run_cons (stage : Stage) (token : Token) (tokens : List Token) :
    stage.run (token :: tokens) = stage.next token >>= fun middle => middle.run tokens := rfl

theorem run_cons_of_ok (first : stage.next token = .ok middle) (tokens : List Token) :
    stage.run (token :: tokens) = middle.run tokens := by
  rw [run_cons, first]
  rfl

theorem run_append_of_ok (front : stage.run tokens = .ok last) (more : List Token) :
    stage.run (tokens ++ more) = last.run more := by
  rw [run, List.foldlM_append]
  rw [run] at front
  rw [front]
  rfl

/-- Tokens are read to the end, or up to the first one that nothing goes on with. -/
theorem run_cases (stage : Stage) (tokens : List Token) :
    (∃ last, stage.run tokens = .ok last) ∨
      ∃ ahead token rest middle error, tokens = ahead ++ token :: rest ∧
        stage.run ahead = .ok middle ∧ middle.next token = .error error := by
  induction tokens generalizing stage with
  | nil => exact .inl ⟨stage, rfl⟩
  | cons token tokens ih =>
    cases read : stage.next token with
    | error error => exact .inr ⟨[], token, tokens, stage, error, rfl, rfl, read⟩
    | ok second =>
      rcases ih second with ⟨last, reached⟩ | ⟨ahead, found, rest, middle, error, rfl, front, stuck⟩
      · exact .inl ⟨last, (run_cons_of_ok read tokens).trans reached⟩
      · exact .inr ⟨token :: ahead, found, rest, middle, error, rfl,
          (run_cons_of_ok read ahead).trans front, stuck⟩

/-! ## Programs are read token by token -/

theorem kind_of_names {op : Op} (named : token.names op = true) :
    token.kind = .instruction ∧ Op.ofMnemonic? token.value = some op ∧
      token.placesData = false := by
  unfold Token.names at named
  rw [Bool.and_eq_true, beq_iff_eq] at named
  obtain ⟨kind, same⟩ := named
  refine ⟨kind, Op.ofMnemonic?_eq_some_iff.2 same, ?_⟩
  have other := mnemonic_not_data op
  unfold Text.sameFolded at same other
  rw [eq_of_beq same] at other
  unfold Token.placesData Text.sameFolded
  rw [other, Bool.and_false]

theorem opened_of_names {op : Op} (named : token.names op = true) :
    opened token = .ok (awaiting op op.kinds) := by
  obtain ⟨kind, found, other⟩ := kind_of_names named
  simp only [opened, kind, other, found, Bool.false_eq_true, if_false]

theorem opened_of_placesData (named : token.placesData = true) :
    opened token = .ok (.data false) := by
  have kind : token.kind = .instruction := by
    unfold Token.placesData at named
    rw [Bool.and_eq_true, beq_iff_eq] at named
    exact named.1
  simp only [opened, kind, named, if_true]

/-- The first token of an item is read in the same way behind all complete items. -/
theorem next_of_complete (complete : stage.missing? = none) (opens : opened token = .ok middle) :
    stage.next token = .ok middle := by
  cases stage with
  | between => exact opens
  | operands op kind kinds => cases complete
  | data filled =>
    cases filled with
    | false => cases complete
    | true =>
      have other : token.places = false ∧ token.kind ≠ .number := by
        unfold opened at opens
        unfold Token.places Token.inRange
        cases kind : token.kind with
        | label | instruction => exact ⟨rfl, TokenKind.noConfusion⟩
        | number | string | reference | register => simp [kind] at opens
      simp only [next, other.1, other.2, Bool.false_eq_true, if_false, if_true, opens]

theorem run_operands {op : Op} {kinds : List OperandKind} (fit : FitAll kinds tokens) :
    (awaiting op kinds).run tokens = .ok .between := by
  induction fit with
  | nil => rfl
  | @cons kind token kinds tokens first others ih =>
    have read : (awaiting op (kind :: kinds)).next token = .ok (awaiting op kinds) := by
      rw [awaiting, next, if_pos first]
    rw [run_cons_of_ok read, ih]

theorem run_data {filled : Bool} (some : tokens ≠ [])
    (places : ∀ token ∈ tokens, token.places = true) :
    (data filled).run tokens = .ok (.data true) := by
  induction tokens generalizing filled with
  | nil => exact absurd rfl some
  | cons token tokens ih =>
    have read : (data filled).next token = .ok (.data true) := by
      rw [next, if_pos (places token List.mem_cons_self)]
    rw [run_cons_of_ok read]
    cases tokens with
    | nil => rfl
    | cons second tokens =>
      exact ih (List.cons_ne_nil _ _) fun token member =>
        places token (List.mem_cons_of_mem _ member)

theorem run_phrase (complete : stage.missing? = none) (phrase : Phrase tokens) :
    ∃ last, stage.run tokens = .ok last ∧ last.missing? = none := by
  cases phrase with
  | @label head kind =>
    have read : stage.next head = .ok .between :=
      next_of_complete complete (by simp only [opened, kind])
    exact ⟨.between, run_cons_of_ok read [], rfl⟩
  | @command head op arguments named fit =>
    have read := next_of_complete complete (opened_of_names named)
    exact ⟨.between, (run_cons_of_ok read arguments).trans (run_operands fit), rfl⟩
  | @data head arguments named filled places =>
    have read := next_of_complete complete (opened_of_placesData named)
    exact ⟨.data true, (run_cons_of_ok read arguments).trans (run_data filled places), rfl⟩

theorem run_program (complete : stage.missing? = none) (program : IsProgram tokens) :
    ∃ last, stage.run tokens = .ok last ∧ last.missing? = none := by
  induction program generalizing stage with
  | nil => exact ⟨stage, rfl, complete⟩
  | @cons phrase tokens first others ih =>
    obtain ⟨middle, front, complete⟩ := run_phrase complete first
    obtain ⟨last, back, complete⟩ := ih complete
    exact ⟨last, (run_append_of_ok front tokens).trans back, complete⟩

/-! ## What is read token by token is a program -/

/-- The tokens of the item that a stage stands in, or behind which its next argument may come. -/
inductive Begun : Stage → List Token → Prop
  | between : Begun .between []
  | operands {head : Token} {op : Op} {kind : OperandKind} {before kinds : List OperandKind}
    {done : List Token} (named : head.names op = true)
    (split : op.kinds = before ++ kind :: kinds) (fit : FitAll before done) :
    Begun (.operands op kind kinds) (head :: done)
  | data {head : Token} {done : List Token} {filled : Bool} (named : head.placesData = true)
    (some : filled = true → done ≠ []) (places : ∀ argument ∈ done, argument.places = true) :
    Begun (.data filled) (head :: done)

/-- The tokens behind which a stage stands: complete items, and the item that the stage stands
in. -/
def Reaches (stage : Stage) (tokens : List Token) : Prop :=
  ∃ complete begun, tokens = complete ++ begun ∧ IsProgram complete ∧ stage.Begun begun

end Stage

theorem IsProgram.append {left right : List Token} (first : IsProgram left)
    (second : IsProgram right) : IsProgram (left ++ right) := by
  induction first with
  | nil => exact second
  | cons phrase others ih =>
    rw [List.append_assoc]
    exact .cons phrase ih

theorem Phrase.isProgram {phrase : List Token} (h : Phrase phrase) : IsProgram phrase := by
  have program := IsProgram.cons h .nil
  rwa [List.append_nil] at program

theorem FitAll.append_one {kinds : List OperandKind} {tokens : List Token} {kind : OperandKind}
    {token : Token} (front : FitAll kinds tokens) (fits : token.fits kind = true) :
    FitAll (kinds ++ [kind]) (tokens ++ [token]) := by
  induction front with
  | nil => exact .cons fits .nil
  | cons first others ih => exact .cons first ih

namespace Stage

variable {stage middle last : Stage} {token : Token} {tokens : List Token}

theorem isProgram_of_reaches (reached : stage.Reaches tokens) (complete : stage.missing? = none) :
    IsProgram tokens := by
  obtain ⟨front, begun, rfl, program, holds⟩ := reached
  cases holds with
  | between => rwa [List.append_nil]
  | operands named split fit => cases complete
  | @data head done filled named some places =>
    cases filled with
    | false => cases complete
    | true => exact program.append (Phrase.data named (some rfl) places).isProgram

/-- The operands of a command are complete, or the next one is to come. -/
theorem begun_awaiting {head : Token} {op : Op} {before kinds : List OperandKind}
    {done : List Token} (named : head.names op = true) (split : op.kinds = before ++ kinds)
    (fit : FitAll before done) : (awaiting op kinds).Reaches (head :: done) := by
  cases kinds with
  | nil =>
    rw [List.append_nil] at split
    exact ⟨head :: done, [], by rw [List.append_nil],
      (Phrase.command named (split ▸ fit)).isProgram, .between⟩
  | cons kind kinds => exact ⟨[], head :: done, rfl, .nil, .operands named split fit⟩

theorem Reaches.behind {front : List Token} (program : IsProgram front)
    (reached : stage.Reaches tokens) : stage.Reaches (front ++ tokens) := by
  obtain ⟨complete, begun, rfl, others, holds⟩ := reached
  exact ⟨front ++ complete, begun, by rw [List.append_assoc], program.append others, holds⟩

theorem reaches_of_opened (opens : opened token = .ok last) : last.Reaches [token] := by
  unfold opened at opens
  split at opens
  · next kind =>
    cases opens
    exact ⟨[token], [], rfl, (Phrase.label kind).isProgram, .between⟩
  · next kind =>
    split at opens
    · next data =>
      cases opens
      exact ⟨[], [token], rfl, .nil, .data data Bool.noConfusion fun _ member =>
        absurd member List.not_mem_nil⟩
    · next data =>
      split at opens
      · next op found =>
        cases opens
        have named : token.names op = true := by
          rw [Token.names, kind, Op.ofMnemonic?_eq_some_iff.1 found]
          rfl
        exact begun_awaiting named (List.nil_append _).symm .nil
      · cases opens
  · cases opens

/-- One more token is one more token of the item, or the first one of the next item. -/
theorem reaches_next (reached : stage.Reaches tokens) (read : stage.next token = .ok last) :
    last.Reaches (tokens ++ [token]) := by
  -- behind complete items the token opens an item of its own
  have another : stage.missing? = none → opened token = .ok last →
      last.Reaches (tokens ++ [token]) := fun complete opens =>
    (reaches_of_opened opens).behind (isProgram_of_reaches reached complete)
  obtain ⟨complete, begun, rfl, program, holds⟩ := reached
  cases holds with
  | between => exact another rfl read
  | @operands head op kind before kinds done named split fit =>
    rw [next] at read
    split at read
    · next fits =>
      cases read
      rw [List.append_assoc]
      refine (begun_awaiting named ?_ (fit.append_one fits)).behind program
      rw [split, List.append_assoc]
      rfl
    · cases read
  | @data head done filled named some places =>
    rw [next] at read
    split at read
    · next placed =>
      cases read
      refine ⟨complete, head :: (done ++ [token]), by rw [List.append_assoc]; rfl, program,
        .data named (fun _ => List.append_ne_nil_of_right_ne_nil _ (List.cons_ne_nil _ _)) ?_⟩
      intro argument member
      rcases List.mem_append.1 member with member | member
      · exact places argument member
      · rwa [List.mem_singleton.1 member]
    · split at read
      · cases read
      · cases filled with
        | false => cases read
        | true => exact another rfl read

theorem reaches_run {done : List Token} (reached : stage.Reaches done)
    (read : stage.run tokens = .ok last) : last.Reaches (done ++ tokens) := by
  induction tokens generalizing stage done with
  | nil =>
    cases read
    rwa [List.append_nil]
  | cons token tokens ih =>
    rw [run_cons] at read
    obtain ⟨middle, first, others⟩ := bind_ok read
    have behind := ih (reaches_next reached first) others
    rwa [List.append_assoc] at behind

end Stage

/-- A program is what is read token by token with nothing missing at the end. -/
theorem isProgram_iff {tokens : List Token} :
    IsProgram tokens ↔ ∃ stage, Stage.between.run tokens = .ok stage ∧ stage.missing? = none := by
  constructor
  · exact Stage.run_program rfl
  · rintro ⟨stage, read, complete⟩
    have start : Stage.between.Reaches [] := ⟨[], [], rfl, .nil, .between⟩
    exact Stage.isProgram_of_reaches (Stage.reaches_run start read) complete

/-! ## Where tokens stop being a program -/

namespace Stage

variable {stage : Stage}

theorem exists_fits (kind : OperandKind) : ∃ token : Token, token.fits kind = true := by
  cases kind with
  | register => exact ⟨⟨.register, "R0", 0⟩, by decide +kernel⟩
  | immediate => exact ⟨⟨.reference, "x", 0⟩, rfl⟩

theorem exists_fitAll (kinds : List OperandKind) : ∃ tokens, FitAll kinds tokens := by
  induction kinds with
  | nil => exact ⟨[], .nil⟩
  | cons kind kinds ih =>
    obtain ⟨token, first⟩ := exists_fits kind
    obtain ⟨tokens, others⟩ := ih
    exact ⟨token :: tokens, .cons first others⟩

/-- An item that has been begun can be completed. -/
theorem exists_completion (stage : Stage) :
    ∃ rest last, stage.run rest = .ok last ∧ last.missing? = none := by
  cases stage with
  | between => exact ⟨[], .between, rfl, rfl⟩
  | operands op kind kinds =>
    obtain ⟨rest, fit⟩ := exists_fitAll (kind :: kinds)
    exact ⟨rest, .between, run_operands fit, rfl⟩
  | data filled =>
    have text : ∀ token ∈ [(⟨.string, "", 0⟩ : Token)], token.places = true := by
      intro token member
      rw [List.mem_singleton.1 member]
      rfl
    exact ⟨_, .data true, run_data (List.cons_ne_nil _ _) text, rfl⟩

end Stage

variable {ahead tokens : List Token} {token : Token} {error : AssemblyError}

theorem exists_program {stage : Stage} (front : Stage.between.run ahead = .ok stage) :
    ∃ rest, IsProgram (ahead ++ rest) := by
  obtain ⟨rest, last, read, complete⟩ := stage.exists_completion
  exact ⟨rest, isProgram_iff.2 ⟨last, (Stage.run_append_of_ok front rest).trans read, complete⟩⟩

theorem BreaksAt.not_isProgram (breaks : BreaksAt ahead token error) (rest : List Token) :
    ¬IsProgram (ahead ++ token :: rest) := by
  intro program
  obtain ⟨stage, front, stuck⟩ := breaks
  obtain ⟨last, read, -⟩ := isProgram_iff.1 program
  rw [Stage.run_append_of_ok front, Stage.run_cons, stuck] at read
  cases read

/-- Tokens that are no program have a first token that no program has there, or they break off in
the middle of an item. -/
theorem breaks_of_not_isProgram (no : ¬IsProgram tokens) :
    (∃ ahead token rest error, tokens = ahead ++ token :: rest ∧ BreaksAt ahead token error) ∨
      ∃ error, BreaksOff tokens error := by
  rcases Stage.between.run_cases tokens with
    ⟨last, read⟩ | ⟨ahead, token, rest, middle, error, rfl, front, stuck⟩
  · cases missing : last.missing? with
    | none => exact absurd (isProgram_iff.2 ⟨last, read, missing⟩) no
    | some error => exact .inr ⟨error, last, read, missing⟩
  · exact .inl ⟨ahead, token, rest, error, rfl, middle, front, stuck⟩

end TickMachine
