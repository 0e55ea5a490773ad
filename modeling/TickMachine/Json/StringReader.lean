import TickMachine.Json.NumberReader

/-! # Reading JSON strings

The inside of a JSON string, from behind its opening quote. A character outside the basic plane
may be written as a pair of surrogates; a surrogate that stands alone is refused in a string that
is kept. -/

namespace TickMachine.Json

/-- The value of a hexadecimal digit. -/
def hexValue? (c : Char) : Option Nat :=
  if c.isDigit then some (c.toNat - '0'.toNat)
  else if 'a' ≤ c ∧ c ≤ 'f' then some (c.toNat - 'a'.toNat + 10)
  else if 'A' ≤ c ∧ c ≤ 'F' then some (c.toNat - 'A'.toNat + 10)
  else none

/-- Reads four hexadecimal digits. The text ends too early when fewer than four bytes of it are
left. -/
def hexUnit : List Char → Except Failure (Nat × List Char)
  | a :: b :: c :: d :: rest =>
    match hexValue? a, hexValue? b, hexValue? c, hexValue? d with
    | some a, some b, some c, some d => .ok (((a * 16 + b) * 16 + c) * 16 + d, rest)
    | _, _, _, _ => .error .malformed
  | short =>
    if (String.ofList short).utf8ByteSize < 4 then .error .truncated else .error .malformed

/-- Whether a code unit is the first half of a pair. -/
def isHighSurrogate (unit : Nat) : Bool := decide (0xd800 ≤ unit ∧ unit ≤ 0xdbff)

/-- Whether a code unit is the second half of a pair. -/
def isLowSurrogate (unit : Nat) : Bool := decide (0xdc00 ≤ unit ∧ unit ≤ 0xdfff)

/-- Reads the second half of a pair, with the escape that introduces it. -/
def lowSurrogate (high : Nat) : List Char → Except Failure (Char × List Char)
  | [] => .error .truncated
  | ['\\'] => .error .truncated
  | '\\' :: 'u' :: text =>
    match hexUnit text with
    | .error failure => .error failure
    | .ok (low, rest) =>
      if isLowSurrogate low then
        .ok (Char.ofNat (0x10000 + (high - 0xd800) * 0x400 + (low - 0xdc00)), rest)
      else .error .malformed
  | _ => .error .malformed

/-- Reads a character written as a code unit or as a pair, from behind the `u`. -/
def codedChar (care : Care) (text : List Char) : Except Failure (Char × List Char) :=
  match hexUnit text with
  | .error failure => .error failure
  | .ok (unit, rest) =>
    if care = .skipped then .ok (Char.ofNat unit, rest)
    else if isLowSurrogate unit then .error .malformed
    else if isHighSurrogate unit then lowSurrogate unit rest
    else .ok (Char.ofNat unit, rest)

theorem hexUnit_length_le {text rest : List Char} {unit : Nat}
    (h : hexUnit text = .ok (unit, rest)) : rest.length ≤ text.length := by
  unfold hexUnit at h
  split at h
  · split at h
    · cases h
      simp only [List.length_cons]
      omega
    · cases h
  · split at h <;> cases h

theorem lowSurrogate_length_le {high : Nat} {text rest : List Char} {c : Char}
    (h : lowSurrogate high text = .ok (c, rest)) : rest.length ≤ text.length := by
  unfold lowSurrogate at h
  split at h
  · contradiction
  · contradiction
  · split at h
    · contradiction
    · next unit =>
      split at h
      · simp only [Except.ok.injEq, Prod.mk.injEq] at h
        have := hexUnit_length_le unit
        simp only [← h.2, List.length_cons]
        omega
      · contradiction
  · contradiction

theorem codedChar_length_le {care : Care} {text rest : List Char} {c : Char}
    (h : codedChar care text = .ok (c, rest)) : rest.length ≤ text.length := by
  unfold codedChar at h
  split at h
  · contradiction
  · next unit =>
    have := hexUnit_length_le unit
    split at h
    · simp only [Except.ok.injEq, Prod.mk.injEq] at h
      exact h.2 ▸ this
    · split at h
      · contradiction
      · split at h
        · exact Nat.le_trans (lowSurrogate_length_le h) this
        · simp only [Except.ok.injEq, Prod.mk.injEq] at h
          exact h.2 ▸ this

/-- The character that a short escape stands for. -/
def shortEscape? : Char → Option Char
  | '"' => some '"'
  | '\\' => some '\\'
  | '/' => some '/'
  | 'b' => some '\x08'
  | 'f' => some '\x0c'
  | 'n' => some '\n'
  | 'r' => some '\r'
  | 't' => some '\t'
  | _ => none

/-- Reads a string up to its closing quote. `found` holds the characters read so far, the last one
first. -/
def stringBody (care : Care) (found : List Char) : List Char → Except Failure (String × List Char)
  | [] => .error .truncated
  | '"' :: rest => .ok (String.ofList found.reverse, rest)
  | ['\\'] => .error .truncated
  | '\\' :: 'u' :: text =>
    match _coded : codedChar care text with
    | .error failure => .error failure
    | .ok (c, rest) => stringBody care (c :: found) rest
  | '\\' :: c :: rest =>
    match shortEscape? c with
    | some meant => stringBody care (meant :: found) rest
    | none => .error .malformed
  | c :: rest =>
    if c.toNat < 0x20 then .error .malformed else stringBody care (c :: found) rest
termination_by text => text.length
decreasing_by
  · have := codedChar_length_le _coded
    simp only [List.length_cons]
    omega
  · simp only [List.length_cons]
    omega
  · simp only [List.length_cons]
    omega

end TickMachine.Json
