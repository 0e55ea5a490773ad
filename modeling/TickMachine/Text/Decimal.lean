/-! # Decimal numbers

The texts in which numbers are written, and the texts that are read as numbers: decimal digits,
with a sign in front where the number may be negative. -/

namespace TickMachine.Decimal

/-- The decimal digits of a natural number, the most significant first and without leading
zeros. -/
def ofNat (n : Nat) : String := String.ofList (Nat.toDigits 10 n)

/-- An integer in decimal, with a minus sign in front of a negative one. -/
def ofInt : Int → String
  | .ofNat n => ofNat n
  | .negSucc n => "-" ++ ofNat (n + 1)

/-- A machine value in decimal. -/
def ofInt32 (value : Int32) : String := ofInt value.toInt

/-- The number written by one or more decimal digits; any other text is refused. -/
def readNat? (text : List Char) : Option Nat :=
  if text ≠ [] ∧ text.all Char.isDigit then some (Nat.ofDigitChars 10 text 0) else none

/-- The number written by one or more decimal digits with at most one sign in front. -/
def readInt? : List Char → Option Int
  | '+' :: digits => (readNat? digits).map fun n => (n : Int)
  | '-' :: digits => (readNat? digits).map fun n => -(n : Int)
  | digits => (readNat? digits).map fun n => (n : Int)

/-- The machine value equal to an integer; integers outside the 32-bit range have none. -/
def toInt32? (i : Int) : Option Int32 :=
  if Int32.minValue.toInt ≤ i ∧ i ≤ Int32.maxValue.toInt then some (Int32.ofInt i) else none

/-- The machine value written by a signed decimal; a number outside the 32-bit range is
refused rather than wrapped. -/
def readInt32? (text : List Char) : Option Int32 :=
  (readInt? text).bind toInt32?

/-- The number written by decimal digits, with at most one plus sign in front, where it fits in
64 bits. -/
def readCount? (text : List Char) : Option Nat :=
  let digits := match text with
    | '+' :: digits => digits
    | digits => digits
  match readNat? digits with
  | some n => if n < UInt64.size then some n else none
  | none => none

end TickMachine.Decimal
