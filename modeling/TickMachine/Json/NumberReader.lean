import TickMachine.Json.Value

/-! # Reading JSON numbers

A number is read as an integer as long as its digits fit in 64 bits. Any other number is a
decimal, and one whose nearest binary floating-point number of 64 bits would be infinite is
refused. -/

namespace TickMachine.Json

/-- How carefully a value is read. A value that is only skipped is not checked for the range of
its numbers, for pairs of surrogates or for its depth. -/
inductive Care
  | kept
  | skipped
  deriving DecidableEq, Repr

/-- The failure where a digit is missing: a number that is kept is cut short by the end of the
text. -/
def missingDigit (care : Care) (rest : List Char) : Failure :=
  match care, rest with
  | .kept, [] => .truncated
  | _, _ => .malformed

/-- Appends decimal digits to a significand as long as it fits in 64 bits, and answers the digits
that are left. -/
def gatherDigits (significand : Nat) : List Char → Nat × List Char
  | [] => (significand, [])
  | digit :: digits =>
    let longer := 10 * significand + (digit.toNat - '0'.toNat)
    if longer < UInt64.size then gatherDigits longer digits else (significand, digit :: digits)

/-- The number of at most 53 binary digits, followed by zeros, that is nearest to a natural
number. A tie goes to the even one. -/
def nearest53 (n : Nat) : Nat :=
  let unit := 1 <<< (n.log2 + 1 - 53)
  let low := n / unit
  let rest := n % unit
  if 2 * rest > unit ∨ (2 * rest = unit ∧ low % 2 = 1) then (low + 1) * unit else low * unit

/-- Whether a decimal is too large for a floating-point number of 64 bits. The significand and the
power of ten are rounded before they are multiplied. -/
def isTooLarge (significand : Nat) (exponent : Int) : Bool :=
  decide (significand ≠ 0 ∧ 0 ≤ exponent ∧
    (308 < exponent ∨
      (1 <<< 1024) - (1 <<< 970) ≤ nearest53 significand * nearest53 (Nat.pow 10 exponent.toNat)))

/-- A decimal, unless it is too large for one that is kept. -/
def decimal (care : Care) (negative : Bool) (significand : Nat) (exponent : Int) :
    Except Failure Number :=
  if care = .kept ∧ isTooLarge significand exponent then .error .malformed
  else .ok (.decimal negative significand exponent)

/-- The number of a sign and of the digits before the point, where there is neither a point nor an
exponent. Zero with a minus sign is a decimal. -/
def wholeNumber (care : Care) (negative : Bool) (whole : List Char) : Except Failure Number :=
  match gatherDigits 0 whole with
  | (significand, []) =>
    if negative then
      if significand = 0 then .ok (.decimal true 0 0) else .ok (.integer (-(significand : Int)))
    else .ok (.integer significand)
  | (significand, dropped) => decimal care negative significand dropped.length

/-- The number of a sign, the digits before and behind the point, and an exponent. Digits that do
not fit in the significand count only by their number. -/
def decimalNumber (care : Care) (negative : Bool) (whole fraction : List Char) (exponent : Int) :
    Except Failure Number :=
  let (significand, dropped) := gatherDigits 0 whole
  let (significand, ignored) := gatherDigits significand fraction
  let places : Int := (fraction.length : Int) - ignored.length
  decimal care negative significand (dropped.length - places + exponent)

/-- Reads the exponent that may stand behind a number. -/
def exponent (care : Care) (text : List Char) : Except Failure (Option Int × List Char) :=
  match text with
  | c :: rest =>
    if c = 'e' ∨ c = 'E' then
      let (negative, rest) := match rest with
        | '-' :: rest => (true, rest)
        | '+' :: rest => (false, rest)
        | rest => (false, rest)
      let digits := rest.takeWhile Char.isDigit
      let rest := rest.dropWhile Char.isDigit
      if digits = [] then .error (missingDigit care rest)
      else
        let size : Int := Nat.ofDigitChars 10 digits 0
        .ok (some (if negative then -size else size), rest)
    else .ok (none, text)
  | [] => .ok (none, [])

/-- Reads the digits behind a point, if there is one. -/
def fraction (care : Care) (text : List Char) : Except Failure (Option (List Char) × List Char) :=
  match text with
  | '.' :: rest =>
    let digits := rest.takeWhile Char.isDigit
    let rest := rest.dropWhile Char.isDigit
    if digits = [] then .error (missingDigit care rest) else .ok (some digits, rest)
  | text => .ok (none, text)

/-- Reads a number from behind its sign. A zero in front of other digits is refused. -/
def magnitude (care : Care) (negative : Bool) (text : List Char) :
    Except Failure (Number × List Char) := do
  let whole := text.takeWhile Char.isDigit
  let rest := text.dropWhile Char.isDigit
  if whole = [] then .error (missingDigit care rest)
  else if whole.head? = some '0' ∧ 1 < whole.length then .error .malformed
  else
    let (digits, rest) ← fraction care rest
    let (power, rest) ← exponent care rest
    let value ← match digits, power with
      | none, none => wholeNumber care negative whole
      | digits, power => decimalNumber care negative whole (digits.getD []) (power.getD 0)
    return (value, rest)

/-- Reads a number. -/
def number (care : Care) : List Char → Except Failure (Number × List Char)
  | '-' :: rest => magnitude care true rest
  | text => magnitude care false text

end TickMachine.Json
