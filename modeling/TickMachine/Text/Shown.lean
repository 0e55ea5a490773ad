import TickMachine.Text.Invisible.Blank
import TickMachine.Text.Invisible.Extending
import TickMachine.Text.Invisible.Unassigned

/-! # Characters in messages

A message quotes the character that it is about. What would not be visible there is written as
an escape: blank characters other than the ordinary space, characters that extend the one before
them, and codes that stand for no character. -/

namespace TickMachine.Text

/-- Whether one of the ranges holds the code of a character. -/
def inRanges (ranges : List (Nat × Nat)) (c : Char) : Bool :=
  ranges.any fun range => decide (range.1 ≤ c.toNat ∧ c.toNat ≤ range.2)

/-- Whether the character needs an escape to be seen. -/
def isInvisible (c : Char) : Bool :=
  inRanges Invisible.blankRanges c || inRanges Invisible.extendingRanges c ||
    inRanges Invisible.unassignedRanges c

/-- A number in lower-case hexadecimal digits. -/
def hexDigits (n : Nat) : String := String.ofList (Nat.toDigits 16 n)

/-- A character between single quotes, with an escape where it could not be read otherwise. -/
def shownChar (c : Char) : String :=
  let inner :=
    if c = '\t' then "\\t"
    else if c = '\r' then "\\r"
    else if c = '\n' then "\\n"
    else if c = '\x00' then "\\0"
    else if c = '\'' then "\\'"
    else if c = '\\' then "\\\\"
    else if isInvisible c then "\\u\x7b" ++ hexDigits c.toNat ++ "\x7d"
    else String.singleton c
  "'" ++ inner ++ "'"

end TickMachine.Text
