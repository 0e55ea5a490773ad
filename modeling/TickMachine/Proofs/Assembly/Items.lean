import TickMachine.Assembly.Item
import TickMachine.Proofs.Results
import TickMachine.Proofs.Text.Spans

/-! # Items and their tokens

An item is read from its own tokens alone: from its first token and a run of argument tokens behind
it. What follows the run does not matter, and in a program that is read to its end the run is as
long as it can be. -/

namespace TickMachine

/-- No operation has the mnemonic that places data. -/
theorem mnemonic_not_data (op : Op) : Text.sameFolded op.mnemonic dataMnemonic = false := by
  cases op <;> decide +kernel

/-- Whether a token is an argument. -/
def Token.isArgument (token : Token) : Bool := token.kind.isArgument

/-- The first token of an item with the argument tokens behind it. -/
structure Part where
  head : Token
  arguments : List Token

namespace Part

/-- The item that a part gives when it is read to its end. -/
def Gives (part : Part) (item : Item) : Prop :=
  Item.read part.head part.arguments = .ok (item, [])

end Part

/-- The parts of a program: a new one starts wherever the run of arguments ends. -/
def parts : List Token → List Part
  | [] => []
  | token :: tokens =>
    ⟨token, tokens.takeWhile Token.isArgument⟩ :: parts (tokens.dropWhile Token.isArgument)
termination_by tokens => tokens.length
decreasing_by
  exact Nat.lt_succ_of_le (List.dropWhile_sublist Token.isArgument).length_le

theorem parts_nil : parts [] = [] := by
  rw [parts]

theorem parts_cons {token : Token} {used rest : List Token}
    (arguments : ∀ argument ∈ used, argument.isArgument = true)
    (ends : Text.Ends Token.isArgument rest) :
    parts (token :: (used ++ rest)) = ⟨token, used⟩ :: parts rest := by
  rw [parts, Text.takeWhile_span arguments ends, Text.dropWhile_span arguments ends]

namespace Item

/-- A result that has been read from a run of arguments in front of the remaining tokens, and that
is read from the run alone as well. -/
structure Reading {α : Type} (reader : List Token → Except AssemblyError (α × List Token))
    (tokens rest : List Token) (found : α) (used : List Token) : Prop where
  split : tokens = used ++ rest
  arguments : ∀ argument ∈ used, argument.isArgument = true
  alone : reader used = .ok (found, [])

theorem isArgument_of_readOperand {op : Op} {kind : OperandKind} {token : Token} {operand : Operand}
    (h : readOperand op kind token = .ok operand) : token.isArgument = true := by
  unfold readOperand at h
  unfold Token.isArgument
  split at h
  · next named => rw [named]; rfl
  · next numbered => rw [numbered]; rfl
  · next referred => rw [referred]; rfl
  · cases h

theorem isArgument_of_isDatum {token : Token} (h : isDatum token = true) :
    token.isArgument = true := by
  unfold isDatum at h
  unfold Token.isArgument
  cases kind : token.kind with
  | label | instruction => simp [kind] at h
  | number | string | reference | register => rfl

theorem readOperands_cons_ok {op : Op} {kind : OperandKind} {kinds : List OperandKind}
    {tokens rest : List Token} {found : List Operand}
    (h : readOperands op (kind :: kinds) tokens = .ok (found, rest)) :
    ∃ token behind operand operands, tokens = token :: behind ∧
      readOperand op kind token = .ok operand ∧
      readOperands op kinds behind = .ok (operands, rest) ∧ found = operand :: operands := by
  cases tokens with
  | nil => rw [readOperands] at h; cases h
  | cons token tokens =>
    rw [readOperands] at h
    split at h
    · cases h
    · next operand read =>
      split at h
      · cases h
      · next operands _ readOthers =>
        cases h
        exact ⟨token, tokens, operand, operands, rfl, read, readOthers, rfl⟩

theorem readOperands_reading {op : Op} {kinds : List OperandKind} {tokens rest : List Token}
    {found : List Operand} (h : readOperands op kinds tokens = .ok (found, rest)) :
    ∃ used, Reading (readOperands op kinds) tokens rest found used := by
  induction kinds generalizing tokens found with
  | nil =>
    rw [readOperands] at h
    cases h
    exact ⟨[], rfl, fun _ member => absurd member List.not_mem_nil, by rw [readOperands]⟩
  | cons kind kinds ih =>
    obtain ⟨token, behind, operand, operands, rfl, read, readOthers, rfl⟩ := readOperands_cons_ok h
    obtain ⟨used, split, arguments, alone⟩ := ih readOthers
    refine ⟨token :: used, by rw [split]; rfl, ?_, by rw [readOperands, read, alone]⟩
    intro argument member
    rcases List.mem_cons.1 member with rfl | member
    · exact isArgument_of_readOperand read
    · exact arguments argument member

theorem readData_of_takeWhile {tokens others : List Token} {first : Token}
    (front : tokens.takeWhile isDatum = first :: others) :
    readData tokens =
      ((first :: others).mapM readDatum).map fun found => (found, tokens.dropWhile isDatum) := by
  unfold readData
  simp only [front]
  cases (first :: others).mapM readDatum with
  | error error => rfl
  | ok found => rfl

theorem ends_isDatum {rest : List Token} (ends : Text.Ends Token.isArgument rest) :
    Text.Ends isDatum rest := by
  intro token head
  rw [Bool.eq_false_iff]
  intro datum
  have argument := isArgument_of_isDatum datum
  rw [ends token head] at argument
  cases argument

theorem readData_of_all {tokens rest : List Token} {found : List Datum} (filled : tokens ≠ [])
    (data : ∀ token ∈ tokens, isDatum token = true)
    (read : tokens.mapM readDatum = .ok found) (ends : Text.Ends isDatum rest) :
    readData (tokens ++ rest) = .ok (found, rest) := by
  obtain ⟨first, others, rfl⟩ := List.exists_cons_of_ne_nil filled
  rw [readData_of_takeWhile (Text.takeWhile_span data ends), read,
    Text.dropWhile_span data ends]
  rfl

theorem readData_reading {tokens rest : List Token} {found : List Datum}
    (h : readData tokens = .ok (found, rest)) :
    ∃ used, Reading readData tokens rest found used := by
  have data : ∀ token ∈ tokens.takeWhile isDatum, isDatum token = true :=
    List.all_eq_true.1 List.all_takeWhile
  rcases front : tokens.takeWhile isDatum with _ | ⟨first, others⟩
  · unfold readData at h
    rw [front] at h
    cases tokens <;> cases h
  · rw [readData_of_takeWhile front] at h
    rw [front] at data
    -- the run is a run of data again when it stands alone
    have again := Text.takeWhile_span data Text.ends_nil
    have nothing := Text.dropWhile_span data Text.ends_nil
    rw [List.append_nil] at again nothing
    obtain ⟨result, read, same⟩ := map_ok h
    cases same
    refine ⟨first :: others, ?_, ?_, ?_⟩
    · rw [← front, List.takeWhile_append_dropWhile]
    · intro token member
      exact isArgument_of_isDatum (data token member)
    · rw [readData_of_takeWhile again, read, nothing]
      rfl

theorem read_reading {token : Token} {tokens rest : List Token} {item : Item}
    (h : read token tokens = .ok (item, rest)) :
    ∃ used, Reading (read token) tokens rest item used := by
  unfold read at h
  split at h
  · next kind =>
    cases h
    exact ⟨[], rfl, fun _ member => absurd member List.not_mem_nil, by rw [read, kind]⟩
  · next kind =>
    split at h
    · next data =>
      split at h
      · cases h
      · next found behind readFound =>
        cases h
        obtain ⟨used, split, arguments, alone⟩ := readData_reading readFound
        exact ⟨used, split, arguments, by simp only [read, kind, data, if_true, alone]⟩
    · next data =>
      split at h
      · cases h
      · next op named =>
        split at h
        · cases h
        · next found behind readFound =>
          cases h
          obtain ⟨used, split, arguments, alone⟩ := readOperands_reading readFound
          exact ⟨used, split, arguments, by
            simp only [read, kind, data, Bool.false_eq_true, if_false, named, alone]⟩
  · cases h

end Item

end TickMachine
