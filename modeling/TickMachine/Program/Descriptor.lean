import TickMachine.Json.Printer
import TickMachine.Json.Reader
import TickMachine.Program.Disassembly
import TickMachine.Program.Executable

/-! # Descriptors

The JSON document in which an executable is kept. Each word is written as the list of its numbers
with its text beside it, where it has one. A reader takes the numbers only, accepts a bare list in
the place of a word, and ignores members that it does not know. -/

namespace TickMachine

/-! ## Writing -/

/-- The numbers of a word as a JSON array. -/
def Word.toJson (word : Word) : Json.Value :=
  .array (word.raw.map fun value => .integer value.toInt)

/-- The entry of a word in a descriptor. -/
def Word.toEntry (word : Word) : Json.Value :=
  let formatted := match word.disassemble with
    | .ok text => [("formatted", Json.Value.string text)]
    | .error _ => []
  .object (("raw", word.toJson) :: formatted)

/-- The descriptor of an executable. -/
def Executable.toDescriptor (executable : Executable) : Json.Value :=
  .object
    [("start", .integer executable.start),
      ("program", .array (executable.program.map Word.toEntry))]

/-- The text of the descriptor of an executable. -/
def Executable.toJson (executable : Executable) : String := executable.toDescriptor.pretty 0

/-! ## Reading -/

namespace Descriptor

open Json

/-- An address as a JSON integer. -/
def address? (value : Int) : Option Nat :=
  if 0 ≤ value ∧ value < UInt64.size then some value.toNat else none

/-- The machine value of a JSON integer. -/
def machineValue? : Value → Option Int32
  | .number (.integer value) => Decimal.toInt32? value
  | _ => none

/-- The word of a JSON array of integers. -/
def word? : Value → Option Word
  | .array items => (items.mapM machineValue?).bind Word.ofRaw?
  | _ => none

/-- The values of a key, in the order of the members. -/
def valuesOf (key : String) (members : List (String × Value)) : List Value :=
  (members.filter (·.1 == key)).map (·.2)

/-- Whether the text beside the numbers may stand there: at most once, and a string or null. -/
def isAnnotation : List Value → Bool
  | [] | [.null] | [.string _] => true
  | _ => false

/-- The word of an entry: a bare list, or an object with the list as a member. -/
def ofEntry? (entry : Value) : Option Word :=
  match entry with
  | .object members =>
    match valuesOf "raw" members with
    | [raw] => if isAnnotation (valuesOf "formatted" members) then word? raw else none
    | _ => none
  | entry => word? entry

/-- The number of arrays and objects that an entry may have inside each other. -/
def entryLevels : Nat := 125

/-- Reads an entry. It is read to its end as JSON before it is looked at. -/
def entry (budget : Nat) (text : List Char) : Except Failure (Word × List Char) := do
  let (found, rest) ← value .kept budget entryLevels text
  match ofEntry? found with
  | some word => return (word, rest)
  | none => .error .mismatched

/-- Reads the words of a program. -/
def program (budget : Nat) (text : List Char) : Except Failure (List Word × List Char) :=
  match skipBlank text with
  | '[' :: rest => items budget (entry budget) rest
  | text => .error (mismatch text)

/-- The members of a descriptor that have been read so far. -/
structure Fields where
  start : Option Nat := none
  program : Option (List Word) := none
  deriving DecidableEq, Repr

/-- Reads a member of a descriptor. -/
def field (budget : Nat) (fields : Fields) (text : List Char) :
    Except Failure (Fields × List Char) := do
  let (name, rest) ← key .kept text
  if name = "start" then
    if fields.start.isSome then .error .mismatched
    else
      let rest ← colon rest
      let (start, rest) ← integer address? rest
      return ({ fields with start := some start }, rest)
  else if name = "program" then
    if fields.program.isSome then .error .mismatched
    else
      let rest ← colon rest
      let (words, rest) ← program budget rest
      return ({ fields with program := some words }, rest)
  else
    let rest ← colon rest
    let rest ← skipValue budget rest
    return (fields, rest)

/-- Reads a descriptor written as an object, from behind its opening brace. -/
def ofObject (budget : Nat) (text : List Char) : Except Failure (Executable × List Char) := do
  let (fields, rest) ← collect '\x7d' (field budget) budget true {} text
  match fields with
  | ⟨some start, some program⟩ => return ({ start, program }, rest)
  | _ => .error .mismatched

/-- Reads the next item of a descriptor written as an array. -/
def element {α : Type} (first : Bool) (item : List Char → Except Failure (α × List Char))
    (text : List Char) : Except Failure (α × List Char) := do
  match ← next ']' first text with
  | .closed _ => .error .mismatched
  | .item text => item text

/-- Reads a descriptor written as an array of its start and its program, from behind the opening
bracket. -/
def ofArray (budget : Nat) (text : List Char) : Except Failure (Executable × List Char) := do
  let (start, rest) ← element true (integer address?) text
  let (program, rest) ← element false (program budget) rest
  match skipBlank rest with
  | [] => .error .truncated
  | ']' :: rest => return ({ start, program }, rest)
  | _ => .error .malformed

/-- Reads a descriptor. -/
def read (text : List Char) : Except Failure Executable := do
  let budget := text.length
  let (executable, rest) ← match skipBlank text with
    | '\x7b' :: rest => ofObject budget rest
    | '[' :: rest => ofArray budget rest
    | text => .error (mismatch text)
  endOfText rest
  return executable

/-- Reads a single word, which has to be a bare list. -/
def readWord (text : List Char) : Except Failure Word := do
  let (raw, rest) ← match skipBlank text with
    | '[' :: rest => items text.length (integer Decimal.toInt32?) rest
    | text => .error (mismatch text)
  match Word.ofRaw? raw with
  | none => .error .mismatched
  | some word =>
    endOfText rest
    return word

end Descriptor

/-- The error of a text that is refused as a descriptor: what is wrong with it, and what the JSON
reader says about it. -/
structure DescriptorError where
  failure : Json.Failure
  detail : String
  deriving DecidableEq, Repr

/-- The message of a descriptor error. -/
def DescriptorError.message (error : DescriptorError) : String :=
  s!"malformed compiled program: {error.detail}"

/-- The executable of a descriptor. -/
def Executable.ofJson (text : String) : Except Json.Failure Executable :=
  Descriptor.read text.toList

/-- The word of a JSON array. -/
def Word.ofJson (text : String) : Except Json.Failure Word := Descriptor.readWord text.toList

end TickMachine
