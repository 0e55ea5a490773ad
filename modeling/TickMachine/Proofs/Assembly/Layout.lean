import TickMachine.Assembly.Assemble
import TickMachine.Proofs.Assembly.Items

/-! # The layout of a program

The reference layout of a source, read off its parts without a draft: how many words each part takes
up, which words they are once every label has an address, and where they stand. -/

namespace TickMachine

/-! ## Sizes -/

/-- The sum of the sizes of some things. -/
def total {α : Type} (size : α → Nat) : List α → Nat
  | [] => 0
  | first :: others => size first + total size others

theorem total_append {α : Type} (size : α → Nat) (left right : List α) :
    total size (left ++ right) = total size left + total size right := by
  induction left with
  | nil => exact (Nat.zero_add _).symm
  | cons first others ih => rw [List.cons_append, total, ih, total, Nat.add_assoc]

/-- The number of words that an argument of a data item takes up. -/
def Token.size (argument : Token) : Nat :=
  match argument.kind with
  | .string => argument.value.length + 1
  | _ => 1

namespace Part

/-- Whether the part places data. -/
def isData (part : Part) : Bool := Text.sameFolded part.head.value dataMnemonic

/-- The number of words that a part takes up. -/
def size (part : Part) : Nat :=
  match part.head.kind with
  | .label => 0
  | _ => if part.isData then total Token.size part.arguments else 1

end Part

/-! ## Words -/

namespace Token

/-- The number that an argument stands for: the code of a register, the value of a literal, or the
address of a label. -/
def value? (addressOf : String → Option Nat) (argument : Token) : Option Int32 :=
  match argument.kind with
  | .register => (Register.ofName? argument.value).map Register.code
  | .number => Decimal.readInt32? argument.value.toList
  | .reference => (addressOf argument.value).bind fun address => Decimal.toInt32? address
  | _ => none

/-- The words that an argument of a data item places. -/
def words? (addressOf : String → Option Nat) (argument : Token) : Option (List Word) :=
  match argument.kind with
  | .string =>
    some (argument.value.toList.map (fun c => .data (Int32.ofNat c.toNat)) ++ [.data 0])
  | _ => (argument.value? addressOf).map fun value => [.data value]

end Token

/-- The words that a part dictates. -/
def Part.words? (addressOf : String → Option Nat) (part : Part) : Option (List Word) :=
  match part.head.kind with
  | .label => if part.arguments = [] then some [] else none
  | .instruction =>
    if part.isData then (part.arguments.mapM (Token.words? addressOf)).map List.flatten
    else
      (Op.ofMnemonic? part.head.value).bind fun op =>
        (part.arguments.mapM (Token.value? addressOf)).map fun values => [.command op.code values]
  | _ => none

/-! ## Places -/

/-- A table of labels and an executable that follow the layout of the parts of a program. The parts
stand one after the other, so that the address of a part is the total size of the parts in front of
it. -/
structure LaidOut (parts : List Part) (labels : LabelTable) (executable : Executable) : Prop where
  length : executable.program.length = total Part.size parts
  start : labels.find? startLabel = some executable.start
  label : ∀ before part after, parts = before ++ part :: after → part.head.kind = .label →
    labels.find? part.head.value = some (total Part.size before)
  known : ∀ name address, labels.find? name = some address →
    ∃ before part after, parts = before ++ part :: after ∧ part.head.kind = .label ∧
      part.head.value = name ∧ address = total Part.size before
  inside : ∀ name address, labels.find? name = some address → address ≤ executable.program.length
  words : ∀ before part after, parts = before ++ part :: after →
    part.words? labels.find? =
      some ((executable.program.drop (total Part.size before)).take part.size)

end TickMachine
