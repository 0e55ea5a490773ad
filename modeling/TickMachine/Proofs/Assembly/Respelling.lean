import Mathlib.Data.List.Forall2
import TickMachine.Proofs.Assembly.Items

/-! # Respelled tokens

Tokens that differ only in what labels are called, in the case of mnemonics and registers and in
where they stand. Items that are read from them are the same up to the names of labels, and where
one cannot be read the other cannot either, for the same reason. -/

namespace TickMachine

variable (renames : String → String → Prop)

/-! ## Spellings -/

/-- Tokens of the same kind, in another spelling: the names of labels are renamed, mnemonics and
registers differ at most in the case of their letters, and numbers and strings not at all. -/
def Token.Respelled (token other : Token) : Prop :=
  token.kind = other.kind ∧
    match token.kind with
    | .label | .reference => renames token.value other.value
    | .instruction | .register => Text.sameFolded token.value other.value = true
    | .number | .string => other.value = token.value

/-- Operands that differ at most in the name of a label. -/
inductive Operand.Renamed : Operand → Operand → Prop
  | literal {value : Int32} : Renamed (.literal value) (.literal value)
  | label {name other : String} (renamed : renames name other) : Renamed (.label name) (.label other)

/-- Arguments of data items that differ at most in the name of a label. -/
inductive Datum.Renamed : Datum → Datum → Prop
  | number {value : Int32} : Renamed (.number value) (.number value)
  | label {name other : String} (renamed : renames name other) : Renamed (.label name) (.label other)
  | string {text : String} : Renamed (.string text) (.string text)

/-- Items that differ at most in the names of labels. -/
inductive Item.Renamed : Item → Item → Prop
  | label {name other : String} (renamed : renames name other) : Renamed (.label name) (.label other)
  | instruction {op : Op} {operands others : List Operand}
    (renamed : List.Forall₂ (Operand.Renamed renames) operands others) :
    Renamed (.instruction op operands) (.instruction op others)
  | data {found others : List Datum} (renamed : List.Forall₂ (Datum.Renamed renames) found others) :
    Renamed (.data found) (.data others)

/-- Errors of one kind, which differ at most in how they spell what they are about. -/
inductive AssemblyError.Respelled : AssemblyError → AssemblyError → Prop
  | unexpectedToken {found other : Token} (respelled : found.Respelled renames other) :
    Respelled (.unexpectedToken found) (.unexpectedToken other)
  | unknownInstruction {mnemonic other : String} (folded : Text.sameFolded mnemonic other = true) :
    Respelled (.unknownInstruction mnemonic) (.unknownInstruction other)
  | invalidRegister {name other : String} (folded : Text.sameFolded name other = true) :
    Respelled (.invalidRegister name) (.invalidRegister other)
  | operandKind {op : Op} {expected : OperandKind} {found other : Token}
    (respelled : found.Respelled renames other) :
    Respelled (.operandKind op expected found) (.operandKind op expected other)
  | dataKind {found other : Token} (respelled : found.Respelled renames other) :
    Respelled (.dataKind found) (.dataKind other)
  | missingOperand {op : Op} : Respelled (.missingOperand op) (.missingOperand op)
  | missingData : Respelled .missingData .missingData
  | invalidNumber {text : String} : Respelled (.invalidNumber text) (.invalidNumber text)
  | labelRedefinition {name other : String} (renamed : renames name other) :
    Respelled (.labelRedefinition name) (.labelRedefinition other)
  | undefinedLabel {name other : String} (renamed : renames name other) :
    Respelled (.undefinedLabel name) (.undefinedLabel other)
  | missingStartLabel : Respelled .missingStartLabel .missingStartLabel
  | programTooLarge : Respelled .programTooLarge .programTooLarge

/-- Two results that are there and are related, or two errors of one kind. -/
inductive Alike {α : Type} (related : α → α → Prop) :
    Except AssemblyError α → Except AssemblyError α → Prop
  | ok {found other : α} (same : related found other) : Alike related (.ok found) (.ok other)
  | error {error other : AssemblyError} (respelled : error.Respelled renames other) :
    Alike related (.error error) (.error other)

/-- What has been read from the front of tokens, and the tokens behind it. -/
def InFront {α : Type} (related : α → α → Prop) (found other : α × List Token) : Prop :=
  related found.1 other.1 ∧ List.Forall₂ (Token.Respelled renames) found.2 other.2

variable {renames}

section

variable {α β : Type} {related : α → α → Prop} {attempt other : Except AssemblyError α}

/-- The two ways in which results are alike. -/
theorem Alike.cases (alike : Alike renames related attempt other) :
    (∃ found found', attempt = .ok found ∧ other = .ok found' ∧ related found found') ∨
      ∃ error error', attempt = .error error ∧ other = .error error' ∧
        error.Respelled renames error' := by
  cases alike with
  | ok same => exact .inl ⟨_, _, rfl, rfl, same⟩
  | error respelled => exact .inr ⟨_, _, rfl, rfl, respelled⟩

/-- Steps behind results that are alike. -/
theorem Alike.bind {f g : α → Except AssemblyError β} {relatedBehind : β → β → Prop}
    (alike : Alike renames related attempt other)
    (each : ∀ found found', related found found' →
      Alike renames relatedBehind (f found) (g found')) :
    Alike renames relatedBehind (attempt.bind f) (other.bind g) := by
  cases alike with
  | ok same => exact each _ _ same
  | error respelled => exact .error respelled

theorem Alike.map {f g : α → β} {relatedBehind : β → β → Prop}
    (alike : Alike renames related attempt other)
    (each : ∀ found found', related found found' → relatedBehind (f found) (g found')) :
    Alike renames relatedBehind (attempt.map f) (other.map g) := by
  cases alike with
  | ok same => exact .ok (each _ _ same)
  | error respelled => exact .error respelled

/-- Steps at the elements of two sequences, one by one. -/
theorem alike_mapM {γ : Type} {relatedElements : γ → γ → Prop} {f g : γ → Except AssemblyError α}
    {elements others : List γ} (each : List.Forall₂ relatedElements elements others)
    (step : ∀ element ∈ elements, ∀ other, relatedElements element other →
      Alike renames related (f element) (g other)) :
    Alike renames (List.Forall₂ related) (elements.mapM f) (others.mapM g) := by
  induction each with
  | nil => exact .ok .nil
  | cons first _ ih =>
    obtain ⟨stepFirst, stepOthers⟩ := List.forall_mem_cons.1 step
    rw [List.mapM_cons, List.mapM_cons]
    refine (stepFirst _ first).bind fun _ _ same => ?_
    exact (ih stepOthers).bind fun _ _ rest => .ok (.cons same rest)

end

/-! ## Names that stay -/

theorem Operand.Renamed.eq {operand other : Operand} (renamed : operand.Renamed Eq other) :
    operand = other := by
  cases renamed with
  | literal => rfl
  | label renamed => rw [renamed]

theorem Datum.Renamed.eq {datum other : Datum} (renamed : datum.Renamed Eq other) :
    datum = other := by
  cases renamed with
  | number | string => rfl
  | label renamed => rw [renamed]

/-- Items with the same names of labels are the same. -/
theorem Item.Renamed.eq {item other : Item} (renamed : item.Renamed Eq other) : item = other := by
  cases renamed with
  | label renamed => rw [renamed]
  | instruction operands =>
    have same := operands.imp fun _ _ => Operand.Renamed.eq
    rw [List.forall₂_eq_eq_eq] at same
    rw [same]
  | data arguments =>
    have same := arguments.imp fun _ _ => Datum.Renamed.eq
    rw [List.forall₂_eq_eq_eq] at same
    rw [same]

/-! ## Runs of tokens -/

section

variable {α : Type} {related : α → α → Prop} {p : α → Bool} {elements others : List α}

theorem forall₂_takeWhile (same : ∀ element other, related element other → p element = p other)
    (each : List.Forall₂ related elements others) :
    List.Forall₂ related (elements.takeWhile p) (others.takeWhile p) := by
  induction each with
  | nil => exact .nil
  | @cons element other _ _ first _ ih =>
    rw [List.takeWhile_cons, List.takeWhile_cons, same element other first]
    cases p other with
    | true => exact .cons first ih
    | false => exact .nil

theorem forall₂_dropWhile (same : ∀ element other, related element other → p element = p other)
    (each : List.Forall₂ related elements others) :
    List.Forall₂ related (elements.dropWhile p) (others.dropWhile p) := by
  induction each with
  | nil => exact .nil
  | @cons element other _ _ first rest ih =>
    rw [List.dropWhile_cons, List.dropWhile_cons, same element other first]
    cases p other with
    | true => exact ih
    | false => exact .cons first rest

end

/-! ## Names without regard to case -/

section

variable {name other : String} (folded : Text.sameFolded name other = true)
include folded

theorem sameFolded_right (text : String) :
    Text.sameFolded text other = Text.sameFolded text name := by
  unfold Text.sameFolded at folded ⊢
  rw [eq_of_beq folded]

theorem sameFolded_left (text : String) :
    Text.sameFolded other text = Text.sameFolded name text := by
  unfold Text.sameFolded at folded ⊢
  rw [eq_of_beq folded]

theorem registerOfName?_folded : Register.ofName? other = Register.ofName? name := by
  unfold Register.ofName?
  simp only [sameFolded_right folded]

theorem opOfMnemonic?_folded : Op.ofMnemonic? other = Op.ofMnemonic? name := by
  unfold Op.ofMnemonic?
  simp only [sameFolded_right folded]

end

/-! ## Reading items -/

namespace Item

variable {token other : Token} {tokens others : List Token}

theorem isDatum_respelled (respelled : token.Respelled renames other) :
    isDatum token = isDatum other := by
  unfold isDatum
  rw [respelled.1]

theorem readOperand_alike (op : Op) (kind : OperandKind)
    (respelled : token.Respelled renames other) :
    Alike renames (Operand.Renamed renames) (readOperand op kind token)
      (readOperand op kind other) := by
  obtain ⟨tokenKind, value, position⟩ := token
  obtain ⟨otherKind, otherValue, otherPosition⟩ := other
  have unexpected : Alike renames (Operand.Renamed renames)
      (.error (.operandKind op kind ⟨tokenKind, value, position⟩))
      (.error (.operandKind op kind ⟨otherKind, otherValue, otherPosition⟩)) :=
    .error (.operandKind respelled)
  obtain ⟨kinds, same⟩ := respelled
  obtain rfl : tokenKind = otherKind := kinds
  cases kind with
  | register =>
    cases tokenKind with
    | register =>
      simp only [readOperand, registerOfName?_folded same]
      cases Register.ofName? value with
      | none => exact .error (.invalidRegister same)
      | some register => exact .ok .literal
    | label | instruction | number | string | reference => exact unexpected
  | immediate =>
    cases tokenKind with
    | number =>
      obtain rfl : otherValue = value := same
      simp only [readOperand, readNumber]
      cases Decimal.readInt32? otherValue.toList with
      | none => exact .error .invalidNumber
      | some number => exact .ok .literal
    | reference => exact .ok (.label same)
    | label | instruction | string | register => exact unexpected

theorem readOperands_alike (op : Op) (kinds : List OperandKind)
    (each : List.Forall₂ (Token.Respelled renames) tokens others) :
    Alike renames (InFront renames (List.Forall₂ (Operand.Renamed renames)))
      (readOperands op kinds tokens) (readOperands op kinds others) := by
  induction kinds generalizing tokens others with
  | nil =>
    rw [readOperands, readOperands]
    exact .ok ⟨.nil, each⟩
  | cons kind kinds ih =>
    cases each with
    | nil =>
      rw [readOperands]
      exact .error .missingOperand
    | cons first rest =>
      rw [readOperands, readOperands]
      rcases (readOperand_alike op kind first).cases with
        ⟨_, _, read, read', same⟩ | ⟨_, _, read, read', respelled⟩
      · rcases (ih rest).cases with
          ⟨_, _, behind, behind', same', rest'⟩ | ⟨_, _, behind, behind', respelled⟩
        · simp only [read, read', behind, behind']
          exact .ok ⟨.cons same same', rest'⟩
        · simp only [read, read', behind, behind']
          exact .error respelled
      · simp only [read, read']
        exact .error respelled

theorem readDatum_alike (respelled : token.Respelled renames other)
    (datum : isDatum token = true) :
    Alike renames (Datum.Renamed renames) (readDatum token) (readDatum other) := by
  obtain ⟨tokenKind, value, position⟩ := token
  obtain ⟨otherKind, otherValue, otherPosition⟩ := other
  obtain ⟨kinds, same⟩ := respelled
  obtain rfl : tokenKind = otherKind := kinds
  cases tokenKind with
  | label | instruction | register => cases datum
  | string =>
    obtain rfl : otherValue = value := same
    exact .ok .string
  | reference => exact .ok (.label same)
  | number =>
    obtain rfl : otherValue = value := same
    simp only [readDatum, readNumber]
    cases Decimal.readInt32? otherValue.toList with
    | none => exact .error .invalidNumber
    | some number => exact .ok .number

theorem readData_alike (each : List.Forall₂ (Token.Respelled renames) tokens others) :
    Alike renames (InFront renames (List.Forall₂ (Datum.Renamed renames))) (readData tokens)
      (readData others) := by
  have same : ∀ token other : Token, token.Respelled renames other → isDatum token = isDatum other :=
    fun _ _ => isDatum_respelled
  have chosen := forall₂_takeWhile same each
  have rest := forall₂_dropWhile same each
  have data : ∀ token ∈ tokens.takeWhile isDatum, isDatum token = true :=
    List.all_eq_true.1 List.all_takeWhile
  rcases front : tokens.takeWhile isDatum with _ | ⟨token, run⟩
  · -- without arguments it is the next token that is wrong
    rw [front] at chosen
    have front' := List.forall₂_nil_left_iff.1 chosen
    cases each with
    | nil => exact .error .missingData
    | cons first _ =>
      unfold readData
      rw [front, front']
      exact .error (.dataKind first)
  · rw [front] at chosen data
    obtain ⟨other, run', first, others', front'⟩ := List.forall₂_cons_left_iff.1 chosen
    rw [front'] at chosen
    rw [readData_of_takeWhile front, readData_of_takeWhile front']
    have arguments : Alike renames (List.Forall₂ (Datum.Renamed renames))
        ((token :: run).mapM readDatum) ((other :: run').mapM readDatum) :=
      alike_mapM chosen fun token member other respelled =>
        readDatum_alike respelled (data token member)
    exact arguments.map fun _ _ found => ⟨found, rest⟩

/-- An item is read from respelled tokens as it is read from the tokens. -/
theorem read_alike (respelled : token.Respelled renames other)
    (each : List.Forall₂ (Token.Respelled renames) tokens others) :
    Alike renames (InFront renames (Item.Renamed renames)) (read token tokens)
      (read other others) := by
  have unexpected : Alike renames (InFront renames (Item.Renamed renames))
      (.error (.unexpectedToken token)) (.error (.unexpectedToken other)) :=
    .error (.unexpectedToken respelled)
  obtain ⟨tokenKind, value, position⟩ := token
  obtain ⟨otherKind, otherValue, otherPosition⟩ := other
  obtain ⟨kinds, same⟩ := respelled
  obtain rfl : tokenKind = otherKind := kinds
  unfold read
  cases tokenKind with
  | label => exact .ok ⟨.label same, each⟩
  | number | string | reference | register => exact unexpected
  | instruction =>
    simp only [sameFolded_left same, opOfMnemonic?_folded same]
    split
    · rcases (readData_alike each).cases with
        ⟨_, _, read, read', data, rest⟩ | ⟨_, _, read, read', respelled⟩
      · rw [read, read']
        exact .ok ⟨.data data, rest⟩
      · rw [read, read']
        exact .error respelled
    · cases Op.ofMnemonic? value with
      | none => exact .error (.unknownInstruction same)
      | some op =>
        rcases (readOperands_alike op op.kinds each).cases with
          ⟨_, _, read, read', operands, rest⟩ | ⟨_, _, read, read', respelled⟩
        · simp only [read, read']
          exact .ok ⟨.instruction operands, rest⟩
        · simp only [read, read']
          exact .error respelled

end Item

end TickMachine
