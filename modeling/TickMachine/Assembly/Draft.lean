import TickMachine.Assembly.Item
import TickMachine.Assembly.LabelTable
import TickMachine.Program.Executable

/-! # Drafts

The first pass over a program lays its words out one after the other and enters each label with
the address of the next word. What refers to a label keeps its name, because the label may come
later. -/

namespace TickMachine

/-- A word before labels have addresses. -/
inductive DraftWord
  | data (content : Operand)
  | command (op : Op) (operands : List Operand)
  deriving DecidableEq, Repr

/-- The words of a datum. A string gives one word for each character and a zero at its end. -/
def Datum.words : Datum → List DraftWord
  | .number value => [.data (.literal value)]
  | .label name => [.data (.label name)]
  | .string text =>
    text.toList.map (fun c => .data (.literal (Int32.ofNat c.toNat))) ++ [.data (.literal 0)]

/-- The words of an item. -/
def Item.words : Item → List DraftWord
  | .label _ => []
  | .instruction op operands => [.command op operands]
  | .data arguments => arguments.flatMap Datum.words

/-- A program in the course of the first pass. -/
structure Draft where
  words : Array DraftWord := #[]
  labels : LabelTable := {}
  deriving DecidableEq, Repr, Inhabited

namespace Draft

/-- The draft without words and labels. -/
def empty : Draft := {}

/-- The draft with one more item. -/
def add (draft : Draft) (item : Item) : Except AssemblyError Draft :=
  match item with
  | .label name =>
    match draft.labels.insert name draft.words.size with
    | .error error => .error error
    | .ok labels => .ok { draft with labels }
  | item => .ok { draft with words := draft.words ++ item.words }

/-- Adds the items of a sequence of tokens. The first part of the answer holds the labels entered
before the first error, or all of them. -/
def extend (draft : Draft) : List Token → LabelTable × Except AssemblyError Draft
  | [] => (draft.labels, .ok draft)
  | token :: tokens =>
    let labels := draft.labels
    match _read : Item.read token tokens with
    | .error error => (labels, .error error)
    | .ok (item, rest) =>
      match draft.add item with
      | .error error => (labels, .error error)
      | .ok draft => draft.extend rest
termination_by tokens => tokens.length
decreasing_by exact Nat.lt_succ_of_le (Item.read_length_le _read)

end Draft

/-- The number that an operand stands for. -/
def Operand.resolve (labels : LabelTable) : Operand → Except AssemblyError Int32
  | .literal value => .ok value
  | .label name =>
    match labels.address name with
    | .error error => .error error
    | .ok address =>
      match Decimal.toInt32? address with
      | some value => .ok value
      | none => .error .programTooLarge

/-- The word with addresses in the place of labels. -/
def DraftWord.resolve (labels : LabelTable) : DraftWord → Except AssemblyError Word
  | .data content => (content.resolve labels).map .data
  | .command op operands => (operands.mapM (Operand.resolve labels)).map (Word.ofOp op)

namespace Draft

/-- The second pass: the executable of a complete draft. -/
def link (draft : Draft) : Except AssemblyError Executable :=
  match draft.labels.find? startLabel with
  | none => .error .missingStartLabel
  | some start =>
    match draft.words.toList.mapM (DraftWord.resolve draft.labels) with
    | .error error => .error error
    | .ok program => .ok { start, program }

end Draft

end TickMachine
