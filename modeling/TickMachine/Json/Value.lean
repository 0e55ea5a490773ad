/-! # JSON values

The values of JSON documents. A number is an integer, or a decimal that was written with a
fraction, with an exponent, or beyond 64 bits. -/

namespace TickMachine.Json

/-- A number. A decimal stands for its significand times ten to the exponent. -/
inductive Number
  | integer (value : Int)
  | decimal (negative : Bool) (significand : Nat) (exponent : Int)
  deriving DecidableEq, Repr

/-- A JSON value. The members of an object are kept in the order in which they are written,
repeated keys included. -/
inductive Value
  | null
  | bool (value : Bool)
  | number (value : Number)
  | string (value : String)
  | array (items : List Value)
  | object (members : List (String × Value))
  deriving Repr

/-- An integer as a value. -/
def Value.integer (value : Int) : Value := .number (.integer value)

/-- Why a text does not give the value that is wanted. -/
inductive Failure
  /-- The text ends too early. -/
  | truncated
  /-- The text is not JSON. -/
  | malformed
  /-- The text is JSON of the wrong shape. -/
  | mismatched
  deriving DecidableEq, Repr

end TickMachine.Json
