import TickMachine.Json.Value
import TickMachine.Text.Decimal
import TickMachine.Text.Padding
import TickMachine.Text.Shown

/-! # JSON printer

Values as JSON text: on one line without spaces, or on lines indented by two spaces a level. -/

namespace TickMachine.Json

/-- A character inside a JSON string. Quotes, backslashes and controls are escaped. -/
def escapeChar (c : Char) : String :=
  if c = '"' then "\\\""
  else if c = '\\' then "\\\\"
  else if c = '\x08' then "\\b"
  else if c = '\t' then "\\t"
  else if c = '\n' then "\\n"
  else if c = '\x0c' then "\\f"
  else if c = '\r' then "\\r"
  else if c.toNat < 0x20 then "\\u" ++ Text.padLeft 4 '0' (Text.hexDigits c.toNat)
  else String.singleton c

/-- A JSON string. -/
def quote (text : String) : String := "\"" ++ String.join (text.toList.map escapeChar) ++ "\""

/-- The text of a number. -/
def Number.print : Number → String
  | .integer value => Decimal.ofInt value
  | .decimal negative significand exponent =>
    (if negative then "-" else "") ++ Decimal.ofNat significand ++ "e" ++ Decimal.ofInt exponent

/-- The text of the values that have no parts. -/
def Value.printScalar : Value → String
  | .bool true => "true"
  | .bool false => "false"
  | .number value => value.print
  | .string value => quote value
  | _ => "null"

theorem sizeOf_member_lt {members : List (String × Value)} {member : String × Value}
    (h : member ∈ members) : sizeOf member.2 < sizeOf members := by
  have := List.sizeOf_lt_of_mem h
  cases member
  simp only [Prod.mk.sizeOf_spec] at this ⊢
  omega

/-- The value on one line. -/
def Value.compact : Value → String
  | .array items => "[" ++ ",".intercalate (items.map fun item => item.compact) ++ "]"
  | .object members =>
    "\x7b" ++ ",".intercalate (members.map fun member => quote member.1 ++ ":" ++ member.2.compact)
      ++ "\x7d"
  | value => value.printScalar
decreasing_by
  · have := List.sizeOf_lt_of_mem ‹_ ∈ items›
    simp only [Value.array.sizeOf_spec]
    omega
  · have := sizeOf_member_lt ‹_ ∈ members›
    simp only [Value.object.sizeOf_spec]
    omega

/-- Parts between brackets, each one on a line of its own at the given depth. -/
def block (opening closing : String) (depth : Nat) (parts : List String) : String :=
  if parts = [] then opening ++ closing
  else
    let line := "\n" ++ String.ofList (List.replicate (2 * depth) ' ')
    let inner := line ++ "  "
    opening ++ inner ++ ("," ++ inner).intercalate parts ++ line ++ closing

/-- The value on indented lines, at the given depth. -/
def Value.pretty (depth : Nat) : Value → String
  | .array items => block "[" "]" depth (items.map fun item => item.pretty (depth + 1))
  | .object members =>
    block "\x7b" "\x7d" depth
      (members.map fun member => quote member.1 ++ ": " ++ member.2.pretty (depth + 1))
  | value => value.printScalar
termination_by value => sizeOf value
decreasing_by
  · have := List.sizeOf_lt_of_mem ‹_ ∈ items›
    simp only [Value.array.sizeOf_spec]
    omega
  · have := sizeOf_member_lt ‹_ ∈ members›
    simp only [Value.object.sizeOf_spec]
    omega

end TickMachine.Json
