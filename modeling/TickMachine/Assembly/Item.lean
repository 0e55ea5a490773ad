import TickMachine.Arch.Register
import TickMachine.Assembly.Error

/-! # Items

A program is a sequence of items: labels, instructions with their operands, and data. An item is
read from the front of the tokens. -/

namespace TickMachine

/-- An operand before labels have addresses. -/
inductive Operand
  | literal (value : Int32)
  | label (name : String)
  deriving DecidableEq, Repr

/-- An argument of a data item. -/
inductive Datum
  | number (value : Int32)
  | label (name : String)
  | string (text : String)
  deriving DecidableEq, Repr

/-- An item of a program. -/
inductive Item
  | label (name : String)
  | instruction (op : Op) (operands : List Operand)
  | data (arguments : List Datum)
  deriving DecidableEq, Repr

namespace Item

/-- The value of a number token, unless it is out of range. -/
def readNumber (token : Token) : Except AssemblyError Int32 :=
  match Decimal.readInt32? token.value.toList with
  | some value => .ok value
  | none => .error (.invalidNumber token.value)

/-- The operand that a token stands for where an operation expects one of a kind. -/
def readOperand (op : Op) (kind : OperandKind) (token : Token) : Except AssemblyError Operand :=
  match kind, token.kind with
  | .register, .register =>
    match Register.ofName? token.value with
    | some register => .ok (.literal register.code)
    | none => .error (.invalidRegister token.value)
  | .immediate, .number => (readNumber token).map .literal
  | .immediate, .reference => .ok (.label token.value)
  | _, _ => .error (.operandKind op kind token)

/-- Reads one operand for each kind. -/
def readOperands (op : Op) :
    List OperandKind → List Token → Except AssemblyError (List Operand × List Token)
  | [], tokens => .ok ([], tokens)
  | _ :: _, [] => .error (.missingOperand op)
  | kind :: kinds, token :: tokens =>
    match readOperand op kind token with
    | .error error => .error error
    | .ok first =>
      match readOperands op kinds tokens with
      | .error error => .error error
      | .ok (others, rest) => .ok (first :: others, rest)

/-- Whether a token can be an argument of a data item. -/
def isDatum (token : Token) : Bool :=
  match token.kind with
  | .number | .string | .reference => true
  | .label | .instruction | .register => false

/-- The datum that a token stands for. -/
def readDatum (token : Token) : Except AssemblyError Datum :=
  match token.kind with
  | .string => .ok (.string token.value)
  | .reference => .ok (.label token.value)
  | _ => (readNumber token).map .number

/-- Reads the arguments of a data item: as many as there are, and at least one. -/
def readData (tokens : List Token) : Except AssemblyError (List Datum × List Token) :=
  match tokens.takeWhile isDatum, tokens with
  | [], [] => .error .missingData
  | [], found :: _ => .error (.dataKind found)
  | chosen, _ =>
    match chosen.mapM readDatum with
    | .error error => .error error
    | .ok found => .ok (found, tokens.dropWhile isDatum)

/-- Reads the item that starts with a token, and answers the tokens behind it. -/
def read (token : Token) (tokens : List Token) : Except AssemblyError (Item × List Token) :=
  match token.kind with
  | .label => .ok (.label token.value, tokens)
  | .instruction =>
    if Text.sameFolded token.value dataMnemonic then
      match readData tokens with
      | .error error => .error error
      | .ok (found, rest) => .ok (.data found, rest)
    else
      match Op.ofMnemonic? token.value with
      | none => .error (.unknownInstruction token.value)
      | some op =>
        match readOperands op op.kinds tokens with
        | .error error => .error error
        | .ok (found, rest) => .ok (.instruction op found, rest)
  | _ => .error (.unexpectedToken token)

theorem readOperands_length_le {op : Op} {kinds : List OperandKind} {tokens rest : List Token}
    {found : List Operand} (h : readOperands op kinds tokens = .ok (found, rest)) :
    rest.length ≤ tokens.length := by
  fun_induction readOperands op kinds tokens generalizing found rest with
  | case1 => simp_all
  | case2 => cases h
  | case3 => cases h
  | case4 => cases h
  | case5 kind kinds token tokens first _ others rest' _ ih =>
    cases h
    exact Nat.le_succ_of_le (ih ‹_›)

theorem readData_length_le {tokens rest : List Token} {found : List Datum}
    (h : readData tokens = .ok (found, rest)) : rest.length ≤ tokens.length := by
  unfold readData at h
  split at h
  · cases h
  · cases h
  · split at h
    · cases h
    · cases h
      exact (List.dropWhile_sublist isDatum).length_le

/-- The tokens behind an item are among the tokens given. -/
theorem read_length_le {token : Token} {tokens rest : List Token} {item : Item}
    (h : read token tokens = .ok (item, rest)) : rest.length ≤ tokens.length := by
  unfold read at h
  split at h
  · cases h
    exact Nat.le_refl _
  · split at h
    · split at h
      · cases h
      · next found =>
        cases h
        exact readData_length_le found
    · split at h
      · cases h
      · split at h
        · cases h
        · next found =>
          cases h
          exact readOperands_length_le found
  · cases h

end Item

end TickMachine
