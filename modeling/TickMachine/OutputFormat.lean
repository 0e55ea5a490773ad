import TickMachine.Text.Decimal
import TickMachine.Text.Fold
import TickMachine.Text.Shown

/-! # Output formats

How the bytes that a program sent are shown: as characters, as bytes, or as 32-bit numbers with
the low byte first. Numbers are decimal or hexadecimal, with a comma between them. -/

namespace TickMachine

/-- A way to show bytes. -/
inductive OutputFormat
  | str
  | ints
  | hexInts
  | bytes
  | hexBytes
  deriving DecidableEq, Repr, Inhabited

namespace OutputFormat

/-- Every format. -/
def all : List OutputFormat := [.str, .ints, .hexInts, .bytes, .hexBytes]

/-- The name of the format. -/
def name : OutputFormat → String
  | .str => "str"
  | .ints => "ints"
  | .hexInts => "hex-ints"
  | .bytes => "bytes"
  | .hexBytes => "hex-bytes"

/-- The format of a name. -/
def ofName? (name : String) : Option OutputFormat := all.find? (·.name == name)

/-- The format of a name, whatever the case of its letters. -/
def ofNameFolded? (name : String) : Option OutputFormat :=
  all.find? fun format => Text.sameFolded format.name name

/-- The format that is used when none is named. -/
def usual : OutputFormat := .str

/-- The number that bytes stand for, the low byte first. -/
def littleEndian : List UInt8 → Nat
  | [] => 0
  | byte :: rest => byte.toNat + 256 * littleEndian rest

/-- The numbers that groups of four bytes stand for. Zeros complete the last group. -/
def groups : List UInt8 → List Nat
  | [] => []
  | a :: b :: c :: d :: rest => littleEndian [a, b, c, d] :: groups rest
  | short => [littleEndian short]

/-- A number in hexadecimal. -/
def hex (n : Nat) : String := "0x" ++ Text.hexDigits n

/-- The bytes in the format. -/
def render (format : OutputFormat) (data : List UInt8) : String :=
  match format with
  | .str => String.ofList (data.map fun byte => Char.ofNat byte.toNat)
  | .ints => ", ".intercalate ((groups data).map Decimal.ofNat)
  | .hexInts => ", ".intercalate ((groups data).map hex)
  | .bytes => ", ".intercalate (data.map fun byte => Decimal.ofNat byte.toNat)
  | .hexBytes => ", ".intercalate (data.map fun byte => hex byte.toNat)

end OutputFormat

end TickMachine
